import Relink.Proofs.Request
import Relink.Proofs.Resolution

/-!
# Insertions

A text with other texts put into it at given offsets. Nothing else becomes of it: from the offsets
and what was put there, the text is found again.
-/

set_option autoImplicit false

namespace Relink

/-- What relinking puts into a text. -/
inductive Insertion where
  /-- Between two statements that touch. -/
  | lineBreak
  /-- Behind a specifier, which becomes its replacement. -/
  | suffix (specifier replacement : Text)
deriving DecidableEq, Repr

namespace Insertion

def text : Insertion → Text
  | .lineBreak => ['\n']
  | .suffix specifier replacement => replacement.drop specifier.length

/-- Whether a specifier gets longer. -/
def isSuffix : Insertion → Bool
  | .lineBreak => false
  | .suffix _ _ => true

end Insertion

/-- From `offset` on, the first text becomes the second one by insertions at offsets of the first. -/
inductive Inserts : Nat → List (Nat × Insertion) → Text → Text → Prop where
  | done (offset : Nat) (text : Text) : Inserts offset [] text text
  | insert {offset : Nat} {later : List (Nat × Insertion)} {text out : Text} (kept : Text)
      (insertion : Insertion) :
      Inserts (offset + kept.size) later text out →
        Inserts offset ((offset + kept.size, insertion) :: later) (kept ++ text)
          (kept ++ (insertion.text ++ out))

namespace Inserts

variable {offset : Nat} {all : List (Nat × Insertion)} {text out : Text}

theorem keep (kept : Text) (inserts : Inserts (offset + kept.size) all text out) :
    Inserts offset all (kept ++ text) (kept ++ out) := by
  cases inserts with
  | done => exact .done offset _
  | @insert _ later text out more insertion inserts =>
      have size : offset + kept.size + more.size = offset + (kept ++ more).size := by
        rw [Text.size_append, Nat.add_assoc]
      rw [size] at inserts ⊢
      rw [← List.append_assoc, ← List.append_assoc]
      exact .insert (kept ++ more) insertion inserts

theorem here (insertion : Insertion) (inserts : Inserts offset all text out) :
    Inserts offset ((offset, insertion) :: all) text (insertion.text ++ out) :=
  .insert [] insertion inserts

/-- The text into which something was put is found again. -/
theorem text_unique {other : Text} (inserts : Inserts offset all text out)
    (again : Inserts offset all other out) : text = other := by
  induction inserts generalizing other with
  | done offset text => cases again; rfl
  | @insert offset later text out kept insertion _ ih =>
      generalize place : offset + kept.size = at_ at again
      generalize whole : kept ++ (insertion.text ++ out) = result at again
      cases again with
      | @insert _ _ otherText otherOut otherKept _ inserts =>
          obtain ⟨rfl, sameRest⟩ := Text.append_inj_size whole (Nat.add_left_cancel place)
          have sameOut : out = otherOut := List.append_cancel_left sameRest
          subst sameOut
          rw [ih inserts]

/-- There is only one text that insertions make of a text. -/
theorem out_unique {other : Text} (inserts : Inserts offset all text out)
    (again : Inserts offset all text other) : out = other := by
  induction inserts generalizing other with
  | done offset text => cases again; rfl
  | @insert offset later text out kept insertion _ ih =>
      generalize place : offset + kept.size = at_ at again
      generalize whole : kept ++ text = result at again
      cases again with
      | @insert _ _ otherText otherOut otherKept _ inserts =>
          obtain ⟨rfl, rfl⟩ := Text.append_inj_size whole (Nat.add_left_cancel place)
          rw [ih inserts]

/-- With the suffixes alone a text is made that differs from the other one in line breaks only. -/
theorem suffixes_alone (inserts : Inserts offset all text out) :
    ∃ short, Inserts offset (all.filter (·.2.isSuffix)) text short ∧
      ∀ start, ∃ breaks, (∀ entry ∈ breaks, entry.2 = .lineBreak) ∧ Inserts start breaks short out := by
  induction inserts with
  | done offset text =>
      refine ⟨text, .done offset text, fun start => ⟨[], ?_, .done start text⟩⟩
      intro entry member
      cases member
  | @insert offset later text out kept insertion _ ih =>
      obtain ⟨short, inserts, breaksFrom⟩ := ih
      cases insertion with
      | lineBreak =>
          refine ⟨kept ++ short, inserts.keep kept, fun start => ?_⟩
          obtain ⟨breaks, only, longer⟩ := breaksFrom (start + kept.size)
          refine ⟨(start + kept.size, .lineBreak) :: breaks, ?_, .insert kept .lineBreak longer⟩
          intro entry member
          rcases List.mem_cons.mp member with rfl | further
          · rfl
          · exact only entry further
      | suffix specifier replacement =>
          let suffix := (Insertion.suffix specifier replacement).text
          refine ⟨kept ++ (suffix ++ short), .insert kept (.suffix specifier replacement) inserts,
            fun start => ?_⟩
          obtain ⟨breaks, only, longer⟩ := breaksFrom (start + (kept ++ suffix).size)
          have whole := longer.keep
          rw [List.append_assoc, List.append_assoc] at whole
          exact ⟨breaks, only, whole⟩

end Inserts

end Relink
