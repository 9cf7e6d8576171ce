import Relink.Proofs.Scan.Semicolon

/-!
# Marks

The brackets and the names of tags that are passed over, in their order. A stack tells whether they are
nested: whatever closes must close what was opened last. A unit that is read passes over nested marks, unless
it is a closing bracket itself.
-/

set_option autoImplicit false

namespace Relink

open Scan

/-! ## Nested marks -/

/-- What is opened and closed: a pair of brackets, or the tags of an element. -/
inductive Delimiter where
  | bracket (bracket : Bracket)
  | tag (name : Text)
deriving DecidableEq, Repr

/-- A mark opens or closes. -/
inductive Mark where
  | opens (delimiter : Delimiter)
  | closes (delimiter : Delimiter)
deriving DecidableEq, Repr

/-- What is open behind marks, the innermost first. None if one of them closes what is not open. -/
def Mark.settle : List Delimiter → List Mark → Option (List Delimiter)
  | pending, [] => some pending
  | pending, .opens delimiter :: marks => settle (delimiter :: pending) marks
  | [], .closes _ :: _ => none
  | innermost :: pending, .closes delimiter :: marks =>
    if innermost = delimiter then settle pending marks else none

/-- Marks that close all they open and nothing else. -/
def Nested (marks : List Mark) : Prop := Mark.settle [] marks = some []

instance (marks : List Mark) : Decidable (Nested marks) :=
  inferInstanceAs (Decidable (Mark.settle [] marks = some []))

namespace Mark

theorem settle_append (pending : List Delimiter) (marks others : List Mark) :
    settle pending (marks ++ others) = (settle pending marks).bind (settle · others) := by
  fun_induction settle pending marks with
  | case1 => rfl
  | case2 pending delimiter marks ih => exact ih
  | case3 => rfl
  | case4 innermost pending marks ih => simpa [settle] using ih
  | case5 innermost pending delimiter marks other => simp [settle, other]

/-- What stays open all the while has no part in it. -/
theorem settle_above {pending left : List Delimiter} {marks : List Mark}
    (settles : settle pending marks = some left) (below : List Delimiter) :
    settle (pending ++ below) marks = some (left ++ below) := by
  fun_induction settle pending marks with
  | case1 =>
      cases settles
      rfl
  | case2 pending delimiter marks ih => exact ih settles
  | case3 => cases settles
  | case4 innermost pending marks ih => simpa [settle] using ih settles
  | case5 innermost pending delimiter marks other => cases settles

end Mark

namespace Nested

theorem nil : Nested [] := rfl

/-- Nested marks change nothing. -/
theorem settle {marks : List Mark} (nested : Nested marks) (pending : List Delimiter) :
    Mark.settle pending marks = some pending :=
  Mark.settle_above nested pending

theorem append {marks others : List Mark} (first : Nested marks) (second : Nested others) :
    Nested (marks ++ others) := by
  rw [Nested, Mark.settle_append, first.settle]
  exact second

theorem within {marks : List Mark} (nested : Nested marks) (delimiter : Delimiter) :
    Nested (.opens delimiter :: (marks ++ [.closes delimiter])) := by
  rw [Nested, Mark.settle, Mark.settle_append, nested.settle]
  simp [Mark.settle]

end Nested

/-! ## The marks of a scan -/

namespace Scan

/-- The marks from where an action ends on. -/
def marksBehind {α : Type} (action : Scan α) (marks : α → Reader → List Mark) (reader : Reader) :
    List Mark :=
  match action reader with
  | .ok (value, after) => marks value after
  | .error _ => []

theorem marksBehind_of_ok {α : Type} {action : Scan α} {reader after : Reader} {value : α}
    (run : action reader = .ok (value, after)) (marks : α → Reader → List Mark) :
    marksBehind action marks reader = marks value after := by
  rw [marksBehind, run]

section Group

variable (unit : Scan Token) (marks : Reader → List Mark)

/-- The marks that `group` passes over, with those of each unit. -/
def groupMarks (bracket : Bracket) : Nat → Reader → List Mark
  | 0, _ => []
  | fuel + 1, reader =>
    marks reader ++ marksBehind unit (fun token after =>
      if token.kind = .punctuator bracket.close then [] else groupMarks bracket fuel after) reader

/-- The marks that `substitution` passes over, and that of the brace before it. -/
def substitutionMarks (fuel : Nat) (reader : Reader) : List Mark :=
  .opens (.bracket .brace) :: marksBehind (follow true (.punctuator .parenthesisOpen))
    (fun _ => groupMarks unit marks .brace fuel) reader

end Group

section Fold

variable (substitution : Scan Unit) (marks : Reader → List Mark)

/-- The marks that `templateRest` passes over. -/
def templateMarks (opening : Nat) : Nat → Literal → Reader → List Mark
  | 0, _, _ => []
  | fuel + 1, ending, reader =>
    if ending = .templateHead then
      marks reader ++
        marksBehind (substitution >>= fun _ => templatePart opening) (templateMarks opening fuel) reader
    else []

variable (element : Token → Scan Token) (elementMarks : Token → Reader → List Mark)

def attributesMarks : Nat → Token → Reader → List Mark
  | 0, _, _ => []
  | fuel + 1, token, reader =>
    if token.isPunctuator .chevronRight then []
    else if token.isPunctuator .slash then []
    else if token.isPunctuator .braceOpen then
      marks reader ++ marksBehind (substitution >>= fun _ => tagToken) (attributesMarks fuel) reader
    else if token.isPunctuator .chevronLeft then
      elementMarks token reader ++
        marksBehind (element token >>= fun _ => tagToken) (attributesMarks fuel) reader
    else marksBehind tagToken (attributesMarks fuel) reader

/-- The mark of a closing tag. -/
def closingMarks (fuel : Nat) : Reader → List Mark :=
  marksBehind (tagToken >>= tagName fuel) fun named _ => [.closes (.tag named.1)]

def childrenMarks (opening : Nat) : Nat → Reader → List Mark
  | 0, _ => []
  | fuel + 1, reader =>
    marksBehind (elementText opening >>= fun _ => tagToken) (fun child after =>
      if child.isPunctuator .braceOpen then
        marks after ++ marksBehind substitution (fun _ => childrenMarks opening fuel) after
      else if child.isPunctuator .chevronLeftSlash then closingMarks fuel after
      else if child.isPunctuator .chevronLeft then
        elementMarks child after ++
          marksBehind (element child) (fun _ => childrenMarks opening fuel) after
      else []) reader

/-- The marks that `elementRest` passes over. A tag that ends with `/>` closes what it opens. -/
def elementRestMarks (fuel : Nat) (opening : Token) (named : Text × Token) (reader : Reader) :
    List Mark :=
  attributesMarks substitution marks element elementMarks fuel named.2 reader ++
    marksBehind (attributes substitution element fuel named.2) (fun ending after =>
      match ending with
      | .selfClosed _ => [.closes (.tag named.1)]
      | .opened =>
        childrenMarks substitution marks element elementMarks opening.span.start fuel after) reader

end Fold

/-- The marks that `element` passes over. -/
def elementMarks (substitution : Scan Unit) (marks : Reader → List Mark) :
    Nat → Token → Reader → List Mark
  | 0, _, _ => []
  | fuel + 1, opening, reader =>
    marksBehind (tagToken >>= tagName (fuel + 1)) (fun named after =>
      .opens (.tag named.1) ::
        elementRestMarks substitution marks (element substitution fuel)
          (elementMarks substitution marks fuel) (fuel + 1) opening named after) reader

section Unit

variable (unit : Scan Token) (marks : Reader → List Mark) (fuel : Nat)

/-- The marks that `foldOperand` passes over. -/
def operandMarks (operand : Bool) (token : Token) (reader : Reader) : List Mark :=
  let nested := substitutionMarks unit marks fuel
  match token.kind with
  | .literal .templateHead =>
    templateMarks (substitution unit fuel) nested (token.span.start - 1) fuel .templateHead reader
  | .punctuator .chevronLeft =>
    if operand then elementMarks (substitution unit fuel) nested fuel token reader else []
  | _ => []

/-- The mark of a token that is a bracket, and the marks of the group that it opens. -/
def bracketMarks (kind : Kind) (reader : Reader) : List Mark :=
  match kind.opens?, kind.closes? with
  | some bracket, _ =>
    .opens (.bracket bracket) ::
      marksBehind (follow true kind) (fun _ => groupMarks unit marks bracket fuel) reader
  | none, some bracket => [.closes (.bracket bracket)]
  | none, none => []

end Unit

def unitMarks : Nat → Reader → List Mark
  | 0, _ => []
  | fuel + 1, reader =>
    marksBehind (token reader.mode) (fun first middle =>
      operandMarks (unit fuel) (unitMarks fuel) fuel reader.operand first middle ++
        marksBehind (foldOperand (unit fuel) fuel reader.operand first) (fun whole =>
          bracketMarks (unit fuel) (unitMarks fuel) fuel (plainKind reader.previous whole.kind))
            middle) reader

end Scan

/-! ## Units -/

/-- The marks of a unit: a closing bracket is one of them, all others are nested. -/
def Kind.HasMarks (kind : Kind) (marks : List Mark) : Prop :=
  match kind.closes? with
  | some bracket => marks = [.closes (.bracket bracket)]
  | none => Nested marks

section Group

variable {unit : Scan Token} {marks : Reader → List Mark}
  (units : ∀ {reader after token}, unit reader = .ok (token, after) → token.kind.HasMarks (marks reader))

include units

theorem groupMarks_closed {bracket : Bracket} {fuel : Nat} {reader after : Reader} {stop : Span}
    (run : group unit bracket fuel reader = .ok (stop, after)) :
    ∃ inside, Nested inside ∧
      groupMarks unit marks bracket fuel reader = inside ++ [.closes (.bracket bracket)] := by
  induction fuel generalizing reader with
  | zero => cases run
  | succ fuel ih =>
      obtain ⟨token, middle, read, run⟩ := bind_eq_ok run
      have passed := units read
      rw [groupMarks, marksBehind_of_ok read]
      unfold closeOrGoOn at run
      unfold Kind.HasMarks at passed
      split at run
      · rename_i isClose
        rw [isClose] at passed
        have closes : (Kind.punctuator bracket.close).closes? = some bracket := bracket.closes?_close
        rw [closes] at passed
        exact ⟨[], .nil, by rw [if_pos isClose, passed]; rfl⟩
      split at run
      · cases run
      split at run
      · cases run
      · rename_i isOther _ noClose
        rw [Option.not_isSome_iff_eq_none] at noClose
        rw [noClose] at passed
        obtain ⟨inside, nested, rest⟩ := ih run
        refine ⟨marks reader ++ inside, passed.append nested, ?_⟩
        rw [if_neg isOther, rest, List.append_assoc]

theorem substitutionMarks_nested {fuel : Nat} {reader after : Reader}
    (run : substitution unit fuel reader = .ok ((), after)) :
    Nested (substitutionMarks unit marks fuel reader) := by
  obtain ⟨⟨⟩, inside, follows, run⟩ := bind_eq_ok run
  obtain ⟨stop, last, grouped, -⟩ := bind_eq_ok run
  obtain ⟨passed, nested, isMarks⟩ := groupMarks_closed units grouped
  rw [substitutionMarks, marksBehind_of_ok follows, isMarks]
  exact nested.within _

end Group

section Fold

variable {substitution : Scan Unit} {marks : Reader → List Mark}
  (substitutions : ∀ {reader after}, substitution reader = .ok ((), after) → Nested (marks reader))

include substitutions

theorem templateMarks_nested {opening fuel : Nat} {ending : Literal} {reader after : Reader}
    (run : templateRest substitution opening fuel ending reader = .ok ((), after)) :
    Nested (templateMarks substitution marks opening fuel ending reader) := by
  induction fuel generalizing ending reader with
  | zero => cases run
  | succ fuel ih =>
      rw [templateMarks]
      rw [templateRest] at run
      split at run
      · rename_i goesOn
        obtain ⟨⟨⟩, middle, inner, run⟩ := bind_eq_ok run
        obtain ⟨next, behind, part, run⟩ := bind_eq_ok run
        rw [if_pos goesOn, marksBehind_of_ok ((bind_of_ok inner _).trans part)]
        exact (substitutions inner).append (ih run)
      · rename_i ends
        rw [if_neg ends]
        exact .nil

section Element

variable {element : Token → Scan Token} {elementMarks : Token → Reader → List Mark}
  (elements : ∀ {opening token reader after}, element opening reader = .ok (token, after) →
    Nested (elementMarks opening reader))

include elements

theorem attributesMarks_nested {fuel : Nat} {token : Token} {reader after : Reader} {ending : TagEnd}
    (run : attributes substitution element fuel token reader = .ok (ending, after)) :
    Nested (attributesMarks substitution marks element elementMarks fuel token reader) := by
  induction fuel generalizing token reader with
  | zero => cases run
  | succ fuel ih =>
      rw [attributesMarks]
      rw [attributes] at run
      refine iteInduction (fun _ => .nil) fun noEnd => ?_
      rw [if_neg noEnd] at run
      refine iteInduction (fun _ => .nil) fun noSlash => ?_
      rw [if_neg noSlash] at run
      split at run
      · rename_i isBrace
        obtain ⟨⟨⟩, middle, inner, run⟩ := bind_eq_ok run
        obtain ⟨next, behind, read, run⟩ := bind_eq_ok run
        rw [if_pos isBrace, marksBehind_of_ok ((bind_of_ok inner _).trans read)]
        exact (substitutions inner).append (ih run)
      rename_i noBrace
      rw [if_neg noBrace]
      split at run
      · rename_i isElement
        obtain ⟨nested, middle, inner, run⟩ := bind_eq_ok run
        obtain ⟨next, behind, read, run⟩ := bind_eq_ok run
        rw [if_pos isElement, marksBehind_of_ok ((bind_of_ok inner _).trans read)]
        exact (elements inner).append (ih run)
      rename_i noElement
      rw [if_neg noElement]
      split at run
      · obtain ⟨next, behind, read, run⟩ := bind_eq_ok run
        rw [marksBehind_of_ok read]
        exact ih run
      · cases run

omit substitutions elements in
theorem closingMarks_eq {name : Text} {fuel : Nat} {opening : Token} {reader after : Reader}
    {stop : Span} (run : closingTag name fuel opening reader = .ok (stop, after)) :
    closingMarks fuel reader = [.closes (.tag name)] := by
  obtain ⟨first, middle, read, run⟩ := bind_eq_ok run
  obtain ⟨named, behind, nameRun, run⟩ := bind_eq_ok run
  obtain ⟨⟨⟩, checked, -, run⟩ := bind_eq_ok run
  rw [closingMarks, marksBehind_of_ok ((bind_of_ok read _).trans nameRun)]
  split at run
  · rename_i same
    rw [same]
  · cases run

theorem childrenMarks_closed {name : Text} {opening fuel : Nat} {reader after : Reader} {stop : Span}
    (run : children substitution element name opening fuel reader = .ok (stop, after)) :
    ∃ inside, Nested inside ∧
      childrenMarks substitution marks element elementMarks opening fuel reader =
        inside ++ [.closes (.tag name)] := by
  induction fuel generalizing reader with
  | zero => cases run
  | succ fuel ih =>
      obtain ⟨⟨⟩, first, between, run⟩ := bind_eq_ok run
      obtain ⟨child, middle, read, run⟩ := bind_eq_ok run
      -- A child is a substitution or an element, which are nested, until the tag is closed.
      rw [childrenMarks, marksBehind_of_ok ((bind_of_ok between _).trans read)]
      split at run
      · rename_i isBrace
        obtain ⟨⟨⟩, behind, inner, run⟩ := bind_eq_ok run
        obtain ⟨inside, nested, rest⟩ := ih run
        refine ⟨_, (substitutions inner).append nested, ?_⟩
        rw [if_pos isBrace, marksBehind_of_ok inner, rest, List.append_assoc]
      rename_i noBrace
      rw [if_neg noBrace]
      split at run
      · rename_i isClosing
        exact ⟨[], .nil, by rw [if_pos isClosing, closingMarks_eq run]; rfl⟩
      rename_i noClosing
      rw [if_neg noClosing]
      split at run
      · rename_i isElement
        obtain ⟨folded, behind, inner, run⟩ := bind_eq_ok run
        obtain ⟨inside, nested, rest⟩ := ih run
        refine ⟨_, (elements inner).append nested, ?_⟩
        rw [if_pos isElement, marksBehind_of_ok inner, rest, List.append_assoc]
      · cases run

theorem elementRestMarks_closed {fuel : Nat} {opening : Token} {named : Text × Token}
    {reader after : Reader} {stop : Span}
    (run : elementRest substitution element fuel opening named reader = .ok (stop, after)) :
    ∃ inside, Nested inside ∧
      elementRestMarks substitution marks element elementMarks fuel opening named reader =
        inside ++ [.closes (.tag named.1)] := by
  obtain ⟨ending, middle, tag, run⟩ := bind_eq_ok run
  have inTag := attributesMarks_nested substitutions elements tag
  rw [elementRestMarks, marksBehind_of_ok tag]
  cases ending with
  | selfClosed close => exact ⟨_, inTag, rfl⟩
  | opened =>
      obtain ⟨inside, nested, rest⟩ := childrenMarks_closed substitutions elements run
      exact ⟨_, inTag.append nested, by rw [rest, List.append_assoc]⟩

end Element

theorem elementMarks_nested {fuel : Nat} {opening token : Token} {reader after : Reader}
    (run : element substitution fuel opening reader = .ok (token, after)) :
    Nested (elementMarks substitution marks fuel opening reader) := by
  induction fuel generalizing opening token reader after with
  | zero => cases run
  | succ fuel ih =>
      obtain ⟨first, middle, read, run⟩ := bind_eq_ok run
      obtain ⟨named, behind, nameRun, run⟩ := bind_eq_ok run
      obtain ⟨stop, last, rest, run⟩ := bind_eq_ok run
      obtain ⟨inside, nested, isMarks⟩ := elementRestMarks_closed substitutions ih rest
      rw [elementMarks, marksBehind_of_ok ((bind_of_ok read _).trans nameRun), isMarks]
      exact nested.within _

end Fold

section Unit

variable {inner : Scan Token} {marks : Reader → List Mark}
  (units : ∀ {reader after token}, inner reader = .ok (token, after) → token.kind.HasMarks (marks reader))

include units

theorem operandMarks_nested {fuel : Nat} {operand : Bool} {first whole : Token} {reader after : Reader}
    (run : foldOperand inner fuel operand first reader = .ok (whole, after)) :
    Nested (operandMarks inner marks fuel operand first reader) := by
  have substitutions {reader after : Reader} (run : substitution inner fuel reader = .ok ((), after)) :
      Nested (substitutionMarks inner marks fuel reader) := substitutionMarks_nested units run
  unfold operandMarks
  unfold foldOperand at run
  split
  · rename_i isHead
    simp only [isHead] at run
    obtain ⟨⟨⟩, middle, rest, -⟩ := bind_eq_ok run
    exact templateMarks_nested substitutions rest
  · rename_i isOpening
    simp only [isOpening] at run
    cases operand with
    | true => exact elementMarks_nested substitutions run
    | false => exact .nil
  · exact .nil

theorem bracketMarks_of_group {fuel : Nat} {token whole : Token} {reader after : Reader}
    (run : foldGroup inner fuel token reader = .ok (whole, after)) :
    token.kind.HasMarks (bracketMarks inner marks fuel token.kind reader) := by
  unfold foldGroup at run
  unfold Kind.HasMarks bracketMarks
  cases opens : token.kind.opens? with
  | none => cases token.kind.closes? <;> rfl
  | some bracket =>
      rw [opens] at run
      obtain ⟨⟨⟩, inside, follows, run⟩ := bind_eq_ok run
      obtain ⟨stop, last, grouped, -⟩ := bind_eq_ok run
      obtain ⟨passed, nested, isMarks⟩ := groupMarks_closed units grouped
      have noClose : token.kind.closes? = none := by
        cases isKind : token.kind with
        | punctuator p =>
            rw [isKind] at opens
            cases p <;> first | rfl | cases opens
        | _ => rfl
      rw [noClose]
      simp only [marksBehind_of_ok follows, isMarks]
      exact nested.within _

end Unit

/-- Whatever a unit that is read opens it closes, in order, unless it is a closing bracket itself. -/
theorem unitMarks_of_read {depth : Nat} {reader after : Reader} {token : Token}
    (read : unit depth reader = .ok (token, after)) : token.kind.HasMarks (unitMarks depth reader) := by
  induction depth generalizing reader after token with
  | zero => cases read
  | succ depth ih =>
      rw [unit, unitOver_run] at read
      obtain ⟨first, middle, tokenRun, read⟩ := bind_eq_ok read
      obtain ⟨whole, behind, operandRun, read⟩ := bind_eq_ok read
      obtain ⟨grouped, last, groupRun, read⟩ := bind_eq_ok read
      obtain ⟨⟨⟩, noted, -, done⟩ := bind_eq_ok read
      cases done
      have inOperand := operandMarks_nested ih operandRun
      have inGroup := bracketMarks_of_group ih groupRun
      have kind : token.kind = plainKind reader.previous whole.kind := foldGroup_kind groupRun
      rw [unitMarks, marksBehind_of_ok tokenRun, marksBehind_of_ok operandRun, kind]
      cases isClosing : (plainKind reader.previous whole.kind).closes? with
      | none =>
          simp only [Kind.HasMarks, isClosing] at inGroup ⊢
          exact inOperand.append inGroup
      | some bracket =>
          have isKind := plainKind_eq_punctuator (Kind.eq_of_closes? isClosing)
          obtain ⟨rfl, -⟩ := foldOperand_same operandRun (by simp [isKind]) (by simp [isKind])
          have noOperand : operandMarks (unit depth) (unitMarks depth) depth reader.operand whole middle =
              [] := by
            unfold operandMarks
            rw [isKind]
            cases bracket <;> rfl
          simp only [Kind.HasMarks, isClosing] at inGroup ⊢
          rw [noOperand, inGroup]
          rfl

/-- A group in a template and in a tag. -/
example : unitMarks 9 (Reader.start "(\x60$\x7b[a]\x7d\x60, <b c=\x7bd\x7d/>)".toList) =
    [.opens (.bracket .parenthesis), .opens (.bracket .brace), .opens (.bracket .square),
      .closes (.bracket .square), .closes (.bracket .brace), .opens (.tag ['b']), .opens (.bracket .brace),
      .closes (.bracket .brace), .closes (.tag ['b']), .closes (.bracket .parenthesis)] := by
  decide +kernel

end Relink
