import Relink.Proofs.Path

/-!
# Moves of paths

What a path does on a walk: it starts at the root or not, and then takes names and `..`. Both depend on its
components alone. A path behind another takes the moves of both; the path above one takes all but the last.
-/

set_option autoImplicit false

namespace Relink

/-- The segment of a component that leads elsewhere. -/
def Component.move? : Component → Option Text
  | .root | .current => none
  | .parent => some Path.parentSegment
  | .name text => some text

namespace Path

open Text

/-- The segments that lead elsewhere: names and `..`. -/
def movesOf (segments : List Text) : List Text := segments.filter (· != currentSegment)

def moves (path : Path) : List Text := movesOf path.steps

@[simp] theorem movesOf_nil : movesOf [] = [] := rfl

@[simp] theorem movesOf_append (left right : List Text) :
    movesOf (left ++ right) = movesOf left ++ movesOf right := List.filter_append ..

theorem movesOf_cons_current (segments : List Text) :
    movesOf (currentSegment :: segments) = movesOf segments := by simp [movesOf]

theorem movesOf_cons {segment : Text} (other : segment ≠ currentSegment) (segments : List Text) :
    movesOf (segment :: segments) = segment :: movesOf segments := by simp [movesOf, other]

theorem moves_concat {path : Path} {front : List Text} {last : Text} (split : path.steps = front ++ [last])
    (other : last ≠ currentSegment) : path.moves = movesOf front ++ [last] := by
  rw [moves, split, movesOf_append, movesOf_cons other, movesOf_nil]

/-! ## Moves and components -/

theorem move?_component? {segment : Text} (solid : isVoid segment = false) :
    (component? segment).bind Component.move? = some segment := by
  unfold component?
  rw [solid]
  simp only [Bool.false_eq_true, if_false]
  split
  · rename_i isParent
    simp [Component.move?, isParent]
  · rfl

theorem moves_filterMap (segments : List Text) :
    (segments.filterMap component?).filterMap Component.move? = movesOf (segments.filter (· != [])) := by
  induction segments with
  | nil => rfl
  | cons segment rest ih =>
      cases void : isVoid segment with
      | true =>
          rw [List.filterMap_cons_none (component?_void void), ih]
          rw [isVoid, Bool.or_eq_true, beq_iff_eq, beq_iff_eq] at void
          rcases void with rfl | rfl <;> simp [movesOf, currentSegment]
      | false =>
          have move := move?_component? void
          rw [isVoid, Bool.or_eq_false_iff, beq_eq_false_iff_ne, beq_eq_false_iff_ne] at void
          obtain ⟨component, is, isMove⟩ := Option.bind_eq_some_iff.mp move
          rw [List.filterMap_cons_some is, List.filterMap_cons_some isMove, ih]
          simp [movesOf, void]

theorem move?_leadComponents (lead : Text) : (leadComponents lead).filterMap Component.move? = [] := by
  unfold leadComponents
  split
  · rfl
  · split <;> rfl

theorem moves_eq (path : Path) : path.moves = path.components.filterMap Component.move? := by
  rw [components_eq, List.filterMap_append, move?_leadComponents, List.nil_append, moves_filterMap]
  rfl

theorem root_mem_components {path : Path} : .root ∈ path.components ↔ path.isAbsolute = true := by
  have noRoot : .root ∉ (splitOn '/' path.spelling).filterMap component? := by
    intro member
    obtain ⟨segment, -, is⟩ := List.mem_filterMap.mp member
    unfold component? at is
    split at is
    · cases is
    · split at is <;> cases is
  rw [components_eq, List.mem_append, or_iff_left noRoot, isAbsolute, beq_iff_eq, leadComponents]
  split
  · simp [*]
  · split <;> simp [*]

/-! ## The path above -/

section Parent

variable {path above : Path} (parent : path.parent? = some above)

include parent

theorem components_above : above.components = path.components.dropLast := by
  have directory := components_directory path
  rwa [parent] at directory

theorem moves_above : above.moves = path.moves.dropLast := by
  rw [moves_eq, moves_eq, components_above parent, components_eq, List.filterMap_append,
    move?_leadComponents, List.nil_append]
  rcases List.eq_nil_or_concat ((splitOn '/' path.spelling).filterMap component?) with none | ⟨front, last, some⟩
  · rw [none, List.append_nil]
    unfold leadComponents
    split
    · rfl
    · split <;> rfl
  · have member : last ∈ (splitOn '/' path.spelling).filterMap component? := by simp [some]
    obtain ⟨segment, -, is⟩ := List.mem_filterMap.mp member
    have isMove : ∃ move, last.move? = Option.some move := by
      unfold component? at is
      split at is
      · cases is
      · split at is <;> cases is <;> exact ⟨_, rfl⟩
    obtain ⟨move, isMove⟩ := isMove
    rw [some, List.concat_eq_append, ← List.append_assoc, List.dropLast_concat, List.filterMap_append,
      move?_leadComponents, List.nil_append, List.filterMap_append, List.filterMap_cons_some isMove,
      List.filterMap_nil, List.dropLast_concat]

theorem isAbsolute_above : above.isAbsolute = path.isAbsolute := by
  cases absolute : path.isAbsolute with
  | false =>
      rw [← Bool.not_eq_true, ← root_mem_components, components_above parent]
      intro member
      have inPath := root_mem_components.mp (List.dropLast_subset _ member)
      rw [absolute] at inPath
      cases inPath
  | true =>
      rw [isAbsolute, beq_iff_eq] at absolute
      unfold parent? at parent
      split at parent
      · rw [absolute] at parent
        cases parent
      · rw [absolute, Option.some.injEq] at parent
        rw [← parent]
        rfl

end Parent

/-! ### How it is spelled -/

/-- The segments of a lead on a walk. -/
def leadSteps (lead : Text) : List Text := if lead = currentSegment then [currentSegment] else []

theorem steps_eq (path : Path) : path.steps = leadSteps path.lead ++ path.segments.filter (· != []) := by
  obtain ⟨spelling⟩ := path
  unfold steps segments lead
  simp only
  split
  · rw [splitOn_separator]
    rfl
  · rfl
  · rename_i rest
    rw [show ('.' :: '/' :: rest : Text) = ['.'] ++ '/' :: rest from rfl, splitOn_append]
    simp only [List.cons_append, List.nil_append, List.length_cons, List.length_nil, List.drop_succ_cons,
      List.drop_zero, splitOn_separator]
    rfl
  · rfl

theorem lead_within (path : Path) : path.lead <+: path.spelling := by
  unfold lead
  split
  · rename_i rest spelled
    exact ⟨rest, spelled.symm⟩
  · rename_i spelled
    exact ⟨[], spelled.symm⟩
  · rename_i rest spelled
    exact ⟨'/' :: rest, spelled.symm⟩
  · exact List.nil_prefix

theorem assemble_segments (path : Path) : assemble path.lead path.segments = path := by
  obtain ⟨rest, whole⟩ := lead_within path
  have dropped : path.spelling.drop path.lead.length = rest := by rw [← whole, List.drop_left]
  rw [assemble, segments, joinWith_splitOn, dropped, whole]

section Spelling

variable {path above : Path} (parent : path.parent? = some above)

include parent

theorem above_cases : above = ⟨[]⟩ ∨ ∃ front, solid front <+: path.segments ∧ above = assemble path.lead (solid front) := by
  unfold parent? at parent
  split at parent
  · split at parent
    · cases parent
      exact .inl rfl
    · cases parent
  · cases parent
    exact .inr ⟨_, (solid_within _).trans ((List.dropLast_prefix _).trans (solid_within _)), rfl⟩

theorem spelling_above : above.spelling <+: path.spelling := by
  rcases above_cases parent with rfl | ⟨front, within, rfl⟩
  · exact List.nil_prefix
  · have whole := congrArg Path.spelling (assemble_segments path)
    rw [← whole]
    exact (List.prefix_append_right_inj _).mpr (joinWith_within _ within)

/-- The path above one does not end in the segment of its own directory, unless it is that alone. -/
theorem steps_above : above.moves = [] ∨ ∃ front last, above.steps = front ++ [last] ∧ last ≠ currentSegment := by
  rcases above_cases parent with rfl | ⟨front, within, rfl⟩
  · exact .inl rfl
  · have steps := steps_eq (assemble path.lead (solid front))
    rw [lead_assemble within, segments_assemble within] at steps
    rcases List.eq_nil_or_concat (solid front) with none | ⟨others, last, some⟩
    · rw [moves, steps, none]
      refine .inl ?_
      unfold leadSteps
      split <;> rfl
    · rw [List.concat_eq_append] at some
      have isSolid := solid_last some
      have plain : ∀ segment ∈ solid front, '/' ∉ segment := fun segment member =>
        not_mem_of_mem_splitOn (within.subset member)
      rw [splitOn_joinWith plain (by simp [some]), some, List.filter_append] at steps
      refine .inr ⟨leadSteps path.lead ++ others.filter (· != []), last, ?_, ?_⟩
      · rw [some, steps]
        simp [isVoid_ne_nil isSolid]
      · rintro rfl
        cases isSolid

end Spelling

theorem length_moves_le (path : Path) : path.moves.length ≤ path.spelling.length :=
  Nat.le_trans (List.length_filter_le _ _) (length_splitOn_le '/' path.spelling)

/-! ## A path behind another -/

section Join

variable {next : Path} (relative : next.isAbsolute = false)

include relative

theorem isAbsolute_join (path : Path) : (path.join next).isAbsolute = path.isAbsolute := by
  obtain ⟨spelling⟩ := path
  rw [join, relative]
  simp only [Bool.false_eq_true, if_false]
  split
  · rename_i noSlash
    rcases noSlash with rfl | slash
    · rw [List.nil_append, relative]
      rfl
    · obtain ⟨front, rfl⟩ := List.getLast?_eq_some_iff.mp slash
      rw [List.append_assoc, List.singleton_append]
      cases front with
      | nil => rfl
      | cons c rest =>
          rw [isAbsolute, isAbsolute, lead_append (List.cons_ne_nil c rest), lead_append (List.cons_ne_nil c rest)]
  · rename_i apart
    rw [not_or] at apart
    rw [isAbsolute, isAbsolute, lead_append apart.1]

theorem steps_join (path : Path) : (path.join next).steps = path.steps ++ next.steps := by
  have split_ : ∀ left right : Text, (splitOn '/' (left ++ '/' :: right)).filter (· != []) =
      (splitOn '/' left).filter (· != []) ++ (splitOn '/' right).filter (· != []) := by
    intro left right
    rw [splitOn_append, List.filter_append]
  obtain ⟨spelling⟩ := path
  rw [join, relative]
  simp only [Bool.false_eq_true, if_false]
  split
  · rename_i noSlash
    rcases noSlash with rfl | slash
    · rfl
    · obtain ⟨front, rfl⟩ := List.getLast?_eq_some_iff.mp slash
      rw [List.append_assoc, List.singleton_append]
      simp only [steps]
      rw [split_, split_ front []]
      simp [splitOn]
  · simp only [steps]
    exact split_ _ _

theorem moves_join (path : Path) : (path.join next).moves = path.moves ++ next.moves := by
  rw [moves, steps_join relative, movesOf_append, moves, moves]

/-- A path behind another ends as it ends. -/
theorem endsInSlash_join (nonempty : next.spelling ≠ []) (path : Path) :
    (path.join next).endsInSlash = next.endsInSlash := by
  have last : ∀ before : Text, (before ++ next.spelling).getLast? = next.spelling.getLast? := by
    intro before
    obtain ⟨front, final, split⟩ := (List.eq_nil_or_concat next.spelling).resolve_left nonempty
    rw [split, List.concat_eq_append, ← List.append_assoc, List.getLast?_concat, List.getLast?_concat]
  rw [join, relative]
  simp only [Bool.false_eq_true, if_false]
  split
  · rw [endsInSlash, last, endsInSlash]
  · rw [endsInSlash, ← List.singleton_append, ← List.append_assoc, last, endsInSlash]

end Join

end Path

end Relink
