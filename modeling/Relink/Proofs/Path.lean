import Relink.Path
import Relink.Proofs.Text.Split

/-!
# Components of paths

What a path names depends on its components alone, however it is spelled: paths with the same components
have directories with the same components, and a specifier leads from both to the same place.
-/

set_option autoImplicit false

namespace Relink.Path

open Text

/-! ## Segments and components -/

theorem component?_solid {segment : Text} (solid : isVoid segment = false) :
    ∃ component, component? segment = some component := by
  unfold component?
  rw [solid]
  simp only [Bool.false_eq_true, if_false]
  split <;> exact ⟨_, rfl⟩

theorem component?_void {segment : Text} (void : isVoid segment = true) :
    component? segment = none := by
  unfold component?
  rw [void]
  rfl

/-- The lead is a void segment or none, so it does not matter for the other components. -/
theorem components_eq (path : Path) :
    path.components =
      leadComponents path.lead ++ (splitOn '/' path.spelling).filterMap component? := by
  obtain ⟨spelling⟩ := path
  have same : (splitOn '/' (spelling.drop (lead ⟨spelling⟩).length)).filterMap component? =
      (splitOn '/' spelling).filterMap component? := by
    unfold lead
    split
    · rename_i rest spelled
      simp only at spelled
      subst spelled
      rw [splitOn_separator]
      rfl
    · rename_i spelled
      simp only at spelled
      subst spelled
      rfl
    · rename_i rest spelled
      simp only at spelled
      subst spelled
      rw [show ('.' :: '/' :: rest : Text) = ['.'] ++ '/' :: rest from rfl, splitOn_append]
      simp only [List.cons_append, List.nil_append, List.length_cons, List.length_nil,
        List.drop_succ_cons, List.drop_zero, splitOn_separator]
      rfl
    · rfl
  simp only [components, segments, same]

/-! ## One segment more -/

theorem isVoid_ne_nil {segment : Text} (solid : isVoid segment = false) : segment ≠ [] := by
  rintro rfl
  cases solid

theorem lead_other {c : Char} {rest : Text} (noSlash : c ≠ '/')
    (noPoint : c = '.' → rest ≠ [] ∧ rest.head? ≠ some '/') : lead ⟨c :: rest⟩ = [] := by
  unfold lead
  split
  · rename_i spelled
    simp only [List.cons.injEq] at spelled
    exact absurd spelled.1 noSlash
  · rename_i spelled
    simp only [List.cons.injEq] at spelled
    exact absurd spelled.2 (noPoint spelled.1).1
  · rename_i spelled
    simp only [List.cons.injEq] at spelled
    exact absurd (by rw [spelled.2]; rfl) (noPoint spelled.1).2
  · rfl

/-- What stands behind a slash has no part in the lead. -/
theorem lead_append {text : Text} (nonempty : text ≠ []) (more : Text) :
    lead ⟨text ++ '/' :: more⟩ = lead ⟨text⟩ := by
  obtain ⟨c, rest, rfl⟩ := List.exists_cons_of_ne_nil nonempty
  by_cases slash : c = '/'
  · subst slash
    rfl
  by_cases point : c = '.'
  · subst point
    cases rest with
    | nil => rfl
    | cons d rest =>
        by_cases current : d = '/'
        · subst current
          rfl
        · rw [List.cons_append, lead_other slash fun _ => ⟨by simp, by simp [current]⟩,
            lead_other slash fun _ => ⟨by simp, by simp [current]⟩]
  · rw [List.cons_append, lead_other slash fun isPoint => absurd isPoint point,
      lead_other slash fun isPoint => absurd isPoint point]

theorem lead_segment {segment : Text} (solid : isVoid segment = false) (plain : '/' ∉ segment)
    (rest : Text) : lead ⟨segment ++ rest⟩ = [] := by
  obtain ⟨c, more, rfl⟩ := List.exists_cons_of_ne_nil (isVoid_ne_nil solid)
  rw [List.mem_cons, not_or] at plain
  apply lead_other (Ne.symm plain.1)
  intro point
  subst point
  cases more with
  | nil => cases solid
  | cons d more =>
      rw [List.mem_cons, not_or] at plain
      exact ⟨by simp, by simp [Ne.symm plain.2.1]⟩

theorem components_push {path : Path} {segment : Text} {component : Component}
    (plain : '/' ∉ segment) (is : component? segment = some component) :
    (path.push segment).components = path.components ++ [component] := by
  have solid : isVoid segment = false := by
    cases void : isVoid segment with
    | false => rfl
    | true =>
        rw [component?_void void] at is
        cases is
  have noLead := lead_segment solid plain []
  rw [List.append_nil] at noLead
  have relative : isAbsolute ⟨segment⟩ = false := by
    rw [isAbsolute, noLead]
    rfl
  have one : (splitOn '/' segment).filterMap component? = [component] := by
    rw [splitOn_of_not_mem plain]
    simp [is]
  obtain ⟨spelling⟩ := path
  rw [push, join, relative]
  simp only [Bool.false_eq_true, if_false]
  -- A slash is put before the segment, unless one is there or nothing is.
  split
  · rename_i noSlash
    rcases noSlash with rfl | slash
    · rw [List.nil_append, components_eq, components_eq, noLead, one]
      rfl
    · obtain ⟨front, rfl⟩ := List.getLast?_eq_some_iff.mp slash
      have both : front ++ ['/'] ++ segment = front ++ '/' :: segment := by simp
      have parts : (splitOn '/' (front ++ ['/'])).filterMap component? =
          (splitOn '/' front).filterMap component? := by
        rw [splitOn_append]
        simp [splitOn, component?_void (show isVoid [] = true from rfl)]
      have sameLead : lead ⟨front ++ '/' :: segment⟩ = lead ⟨front ++ ['/']⟩ := by
        cases front with
        | nil => rfl
        | cons c rest =>
            rw [lead_append (by simp), lead_append (by simp)]
      rw [both, components_eq, components_eq, sameLead, splitOn_append, List.filterMap_append, one,
        parts, List.append_assoc]
  · rename_i apart
    rw [not_or] at apart
    rw [components_eq, components_eq, lead_append apart.1, splitOn_append, List.filterMap_append, one,
      List.append_assoc]

/-! ## One component less -/

theorem filterMap_solid (segments : List Text) :
    (solid segments).filterMap component? = segments.filterMap component? := by
  have void : ∀ (reversed : List Text), ((reversed.dropWhile isVoid).reverse).filterMap component? =
      reversed.reverse.filterMap component? := by
    intro reversed
    induction reversed with
    | nil => rfl
    | cons segment rest ih =>
        cases isVoidSegment : isVoid segment with
        | false => simp [isVoidSegment]
        | true =>
            rw [List.dropWhile_cons_of_pos isVoidSegment, ih, List.reverse_cons,
              List.filterMap_append]
            simp [component?_void isVoidSegment]
  rw [solid, void, List.reverse_reverse]

theorem solid_within (segments : List Text) : solid segments <+: segments := by
  have suffix := List.dropWhile_suffix (l := segments.reverse) isVoid
  rw [← List.reverse_prefix, List.reverse_reverse] at suffix
  exact suffix

theorem solid_last {segments front : List Text} {last : Text}
    (is : solid segments = front ++ [last]) : isVoid last = false := by
  have first : (segments.reverse.dropWhile isVoid).head? = some last := by
    have reversed := congrArg List.reverse is
    rw [solid, List.reverse_reverse] at reversed
    rw [reversed]
    simp
  have failed := List.head?_dropWhile_not isVoid segments.reverse
  rw [first] at failed
  exact failed

theorem filterMap_joinWith {front : List Text} (plain : ∀ segment ∈ front, '/' ∉ segment) :
    (splitOn '/' (joinWith ['/'] front)).filterMap component? = front.filterMap component? := by
  cases front with
  | nil => rfl
  | cons segment rest => rw [splitOn_joinWith plain (by simp)]

theorem lead_joinWith {text : Text} (noLead : lead ⟨text⟩ = []) {front : List Text}
    (within : front <+: splitOn '/' text) : lead ⟨joinWith ['/'] front⟩ = [] := by
  cases front with
  | nil => rfl
  | cons segment others =>
      cases text with
      | nil =>
          obtain ⟨more, shape⟩ := within
          rw [show splitOn '/' [] = [[]] from rfl, List.cons_append, List.cons.injEq] at shape
          rw [shape.1, (List.append_eq_nil_iff.mp shape.2).1]
          rfl
      | cons c rest =>
          by_cases slash : c = '/'
          · subst slash
            cases noLead
          obtain ⟨part, parts, split, whole⟩ := splitOn_cons slash rest
          rw [whole] at within
          have first : segment = c :: part := (List.cons_prefix_cons.mp within).1
          have goesOn : c = '.' → part ≠ [] ∧ part.head? ≠ some '/' := by
            rintro rfl
            cases rest with
            | nil => cases noLead
            | cons d rest =>
                by_cases current : d = '/'
                · subst current
                  cases noLead
                obtain ⟨_, _, -, behind⟩ := splitOn_cons current rest
                rw [behind, List.cons.injEq] at split
                rw [← split.1]
                exact ⟨by simp, by simp [current]⟩
          cases others with
          | nil =>
              rw [first]
              exact lead_other slash goesOn
          | cons next others =>
              have joined : joinWith ['/'] (segment :: next :: others) =
                  c :: (part ++ (['/'] ++ joinWith ['/'] (next :: others))) := by
                rw [first, joinWith, List.append_assoc, List.cons_append]
                simp
              rw [joined]
              apply lead_other slash
              intro point
              obtain ⟨d, more, rfl⟩ := List.exists_cons_of_ne_nil (goesOn point).1
              exact ⟨by simp, by simpa using (goesOn point).2⟩

theorem lead_assemble {path : Path} {front : List Text} (within : front <+: path.segments) :
    (assemble path.lead front).lead = path.lead := by
  obtain ⟨spelling⟩ := path
  by_cases noLead : lead ⟨spelling⟩ = []
  · rw [segments, noLead] at within
    rw [noLead, assemble, List.nil_append, lead_joinWith noLead within]
  cases spelling with
  | nil => exact absurd rfl noLead
  | cons c rest =>
      by_cases slash : c = '/'
      · subst slash
        rfl
      · -- The path begins with its own directory, so a void segment stands behind the lead.
        have current : lead ⟨c :: rest⟩ = ['.'] ∧ ∃ more, splitOn '/' rest = [] :: more := by
          by_cases point : c = '.'
          · subst point
            cases rest with
            | nil => exact ⟨rfl, [], rfl⟩
            | cons d rest =>
                by_cases behind : d = '/'
                · subst behind
                  exact ⟨rfl, _, splitOn_separator '/' rest⟩
                · exact absurd (lead_other slash fun _ => ⟨by simp, by simp [behind]⟩) noLead
          · exact absurd (lead_other slash fun isPoint => absurd isPoint point) noLead
        obtain ⟨isLead, more, behind⟩ := current
        have within' : front <+: [] :: more := by
          rw [segments, isLead] at within
          rw [← behind]
          exact within
        rw [isLead]
        cases front with
        | nil => rfl
        | cons segment others =>
            have void : segment = [] := (List.cons_prefix_cons.mp within').1
            subst void
            cases others <;> rfl

/-- Where the segments behind a lead are the first of those of a path, they are found again. -/
theorem segments_assemble {path : Path} {front : List Text} (within : front <+: path.segments) :
    (assemble path.lead front).segments = splitOn '/' (joinWith ['/'] front) := by
  rw [segments, lead_assemble within, assemble, List.drop_left]

theorem components_assemble {path : Path} {front : List Text} (within : front <+: path.segments) :
    (assemble path.lead front).components =
      leadComponents path.lead ++ front.filterMap component? := by
  have plain : ∀ segment ∈ front, '/' ∉ segment := fun segment member =>
    not_mem_of_mem_splitOn (within.subset member)
  rw [components, lead_assemble within, segments_assemble within, filterMap_joinWith plain]

/-- The directory of a path has its components but the last one. -/
theorem components_directory (path : Path) :
    (path.parent?.getD ⟨[]⟩).components = path.components.dropLast := by
  have whole : path.components =
      leadComponents path.lead ++ (solid path.segments).filterMap component? := by
    rw [filterMap_solid]
    rfl
  rcases List.eq_nil_or_concat (solid path.segments) with none | ⟨front, last, some_⟩
  · have noParent : (path.parent?.getD ⟨[]⟩).components = [] := by
      rw [parent?, none]
      by_cases current : path.lead = currentSegment
      · rw [if_pos current]
        rfl
      · rw [if_neg current]
        rfl
    rw [noParent, whole, none]
    unfold leadComponents
    split
    · rfl
    · split <;> rfl
  · rw [List.concat_eq_append] at some_
    obtain ⟨component, is⟩ := component?_solid (solid_last some_)
    have nonempty : solid path.segments ≠ [] := by simp [some_]
    have parent : path.parent?.getD ⟨[]⟩ = assemble path.lead (solid front) := by
      obtain ⟨first, rest, shape⟩ := List.exists_cons_of_ne_nil nonempty
      have dropped : (solid path.segments).dropLast = front := by simp [some_]
      simp only [parent?]
      rw [dropped]
      simp only [shape, Option.getD_some]
    have within : solid front <+: path.segments := by
      refine (solid_within front).trans ((List.prefix_append front [last]).trans ?_)
      rw [← some_]
      exact solid_within path.segments
    rw [parent, components_assemble within, filterMap_solid, whole, some_, List.filterMap_append]
    simp [is]

/-! ## Following specifiers -/

theorem components_parent {path : Path} {name : Text}
    (last : path.components.getLast? = some (.name name)) :
    (path.parent?.getD path).components = path.components.dropLast := by
  have directory := components_directory path
  cases parent : path.parent? with
  | some above =>
      rw [parent] at directory
      exact directory
  | none =>
      have nothing : solid path.segments = [] := by
        unfold parent? at parent
        split at parent
        · assumption
        · cases parent
      have onlyLead : path.components = leadComponents path.lead := by
        rw [components, ← filterMap_solid, nothing, List.filterMap_nil, List.append_nil]
      rw [onlyLead] at last
      unfold leadComponents at last
      split at last
      · cases last
      · split at last <;> cases last

/-- Components one segment further: a name, or a `..` that takes back the last name if there is one. -/
def advance (components : List Component) (segment : Text) : List Component :=
  match component? segment with
  | none => components
  | some .parent =>
    match components.getLast? with
    | some (.name _) => components.dropLast
    | _ => components ++ [.parent]
  | some component => components ++ [component]

theorem components_step (path : Path) {segment : Text} (plain : '/' ∉ segment) :
    (path.step segment).components = advance path.components segment := by
  cases void : isVoid segment with
  | true =>
      simp only [step, void, if_true, advance, component?_void void]
  | false =>
      by_cases isParent : segment = parentSegment
      · subst isParent
        have push : (path.push parentSegment).components = path.components ++ [.parent] :=
          components_push plain rfl
        simp only [step, void, Bool.false_eq_true, if_false, if_true, advance,
          show component? parentSegment = some .parent from rfl]
        cases last : path.components.getLast? with
        | none => exact push
        | some component =>
            cases component with
            | name text => exact components_parent last
            | root | current | parent => exact push
      · have is : component? segment = some (.name segment) := by
          simp only [component?, void, Bool.false_eq_true, if_false, isParent]
        simp only [step, void, Bool.false_eq_true, if_false, isParent, advance, is]
        exact components_push plain is

/-- What a specifier leads to depends on a directory's components and the specifier's segments. -/
theorem components_follow (directory : Path) (specifier : Text) :
    (directory.follow specifier).components =
      (splitOn '/' specifier).foldl advance directory.components := by
  unfold follow
  have plain : ∀ segment ∈ splitOn '/' specifier, '/' ∉ segment := fun segment member =>
    not_mem_of_mem_splitOn member
  generalize splitOn '/' specifier = segments at plain
  induction segments generalizing directory with
  | nil => rfl
  | cons segment rest ih =>
      rw [List.foldl_cons, List.foldl_cons, ← components_step directory (plain segment (List.mem_cons_self ..))]
      exact ih _ fun other member => plain other (List.mem_cons_of_mem _ member)

/-! ## Paths that name the same -/

theorem same_iff {left right : Path} : left.same right = true ↔ left.components = right.components := by
  rw [same, beq_iff_eq]

/-- From the directories of paths that name the same, a specifier leads to the same place. -/
theorem same_follow {left right : Path} (names : left.same right = true) (specifier : Text) :
    ((left.parent?.getD ⟨[]⟩).follow specifier).same
      ((right.parent?.getD ⟨[]⟩).follow specifier) = true := by
  rw [same_iff] at names ⊢
  rw [components_follow, components_follow, components_directory, components_directory, names]

end Relink.Path
