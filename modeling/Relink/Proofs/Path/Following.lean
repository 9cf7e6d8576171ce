import Relink.Proofs.Path

/-!
# Following a specifier

A specifier is followed segment by segment. Void segments do not matter, nor does a name that `..` takes
back at once, and a specifier in two parts is followed part by part. A `..` stays in the result only where
a walk leads above its start: as many stay as `..` outnumber names at most on the way.
-/

set_option autoImplicit false

namespace Relink

def Component.isName : Component → Bool
  | .name _ => true
  | _ => false

namespace Path

open Text

/-- Whether a segment leads down: it is a name, neither void nor `..`. -/
def descends (segment : Text) : Bool := !isVoid segment && segment != parentSegment

theorem segment_cases (segment : Text) :
    isVoid segment = true ∨ segment = parentSegment ∨ descends segment = true := by
  cases void : isVoid segment with
  | true => exact .inl rfl
  | false =>
      by_cases isParent : segment = parentSegment
      · exact .inr (.inl isParent)
      · exact .inr (.inr (by simp [descends, void, isParent]))

theorem component?_cases {segment : Text} {component : Component}
    (is : component? segment = some component) :
    component = .parent ∨ component.isName = true := by
  unfold component? at is
  split at is
  · cases is
  · split at is <;> cases is
    · exact .inl rfl
    · exact .inr rfl

/-! ## One segment -/

theorem advance_void {segment : Text} (void : isVoid segment = true) (components : List Component) :
    advance components segment = components := by
  simp only [advance, component?_void void]

theorem advance_name {segment : Text} (named : descends segment = true) (components : List Component) :
    advance components segment = components ++ [.name segment] := by
  simp only [descends, Bool.and_eq_true, Bool.not_eq_true', bne_iff_ne] at named
  simp only [advance, component?, named.1, named.2, Bool.false_eq_true, if_false]

theorem advance_concat_parent (components : List Component) (name : Text) :
    advance (components ++ [.name name]) parentSegment = components := by
  simp [advance, show component? parentSegment = some .parent from rfl]

theorem advance_parent {components : List Component}
    (above : ∀ name, components.getLast? ≠ some (.name name)) :
    advance components parentSegment = components ++ [.parent] := by
  simp only [advance, show component? parentSegment = some .parent from rfl]

/-! ## Segments that do not matter -/

theorem foldl_advance_solid (segments : List Text) (components : List Component) :
    (segments.filter (!isVoid ·)).foldl advance components = segments.foldl advance components := by
  induction segments generalizing components with
  | nil => rfl
  | cons segment rest ih =>
      cases void : isVoid segment with
      | true =>
          rw [List.filter_cons_of_neg (by simp [void]), List.foldl_cons, advance_void void, ih]
      | false =>
          rw [List.filter_cons_of_pos (by simp [void]), List.foldl_cons, List.foldl_cons, ih]

theorem foldl_advance_detour {segment : Text} (named : descends segment = true) (front back : List Text)
    (components : List Component) :
    (front ++ segment :: parentSegment :: back).foldl advance components =
      (front ++ back).foldl advance components := by
  rw [List.foldl_append, List.foldl_cons, List.foldl_cons, advance_name named, advance_concat_parent,
    ← List.foldl_append]

theorem components_follow_append (directory : Path) (left right : Text) :
    (directory.follow (left ++ '/' :: right)).components =
      ((directory.follow left).follow right).components := by
  rw [components_follow, components_follow, components_follow, splitOn_append, List.foldl_append]

/-! ## Where `..` stand -/

/-- No `..` stands behind a name. -/
def ParentsFirst (components : List Component) : Prop :=
  components.Pairwise fun earlier later => earlier.isName = true → later ≠ .parent

/-- Behind the first component there are names, and `..` where no name is before. -/
def Layered (components : List Component) : Prop :=
  components.Pairwise fun earlier later =>
    later.isName = true ∨ later = .parent ∧ earlier.isName = false

namespace Layered

variable {components : List Component}

theorem parentsFirst (layered : Layered components) : ParentsFirst components := by
  refine List.Pairwise.imp (fun {earlier later} apart named => ?_) layered
  rcases apart with laterNamed | ⟨-, unnamed⟩
  · rintro rfl
    cases laterNamed
  · rw [named] at unnamed
    cases unnamed

/-- Where the last component is no name, none is. -/
theorem no_name (layered : Layered components)
    (above : ∀ name, components.getLast? ≠ some (.name name)) :
    ∀ component ∈ components, component.isName = false := by
  rcases List.eq_nil_or_concat components with rfl | ⟨front, last, rfl⟩
  · exact fun _ member => absurd member List.not_mem_nil
  rw [List.concat_eq_append] at layered above ⊢
  have lastUnnamed : last.isName = false := by
    cases last with
    | name text => exact absurd List.getLast?_concat (above text)
    | root | current | parent => rfl
  intro component member
  rcases List.mem_append.mp member with within | isLast
  · rcases (List.pairwise_append.mp layered).2.2 component within last (List.mem_singleton_self last) with
      lastNamed | ⟨-, unnamed⟩
    · rw [lastUnnamed] at lastNamed
      cases lastNamed
    · exact unnamed
  · rw [List.mem_singleton.mp isLast]
    exact lastUnnamed

/-- A `..` takes back the last name, or there is none and it is kept. -/
theorem parent_cases (layered : Layered components) :
    (∃ front name, components = front ++ [.name name] ∧ advance components parentSegment = front) ∨
      (∀ component ∈ components, component.isName = false) ∧
        advance components parentSegment = components ++ [.parent] := by
  by_cases last : ∃ name, components.getLast? = some (.name name)
  · obtain ⟨name, last⟩ := last
    obtain ⟨front, rfl⟩ := List.getLast?_eq_some_iff.mp last
    exact .inl ⟨front, name, rfl, advance_concat_parent front name⟩
  · have above : ∀ name, components.getLast? ≠ some (.name name) := fun name is => last ⟨name, is⟩
    exact .inr ⟨layered.no_name above, advance_parent above⟩

theorem advance_segment (layered : Layered components) (segment : Text) :
    Layered (advance components segment) := by
  rcases segment_cases segment with void | rfl | named
  · rw [advance_void void]
    exact layered
  · rcases layered.parent_cases with ⟨front, name, rfl, taken⟩ | ⟨unnamed, kept⟩
    · rw [taken]
      exact (List.pairwise_append.mp layered).1
    · rw [kept]
      refine List.pairwise_append.mpr ⟨layered, List.pairwise_singleton .., fun component member later isLater => ?_⟩
      exact .inr ⟨List.mem_singleton.mp isLater, unnamed component member⟩
  · rw [advance_name named]
    refine List.pairwise_append.mpr ⟨layered, List.pairwise_singleton .., fun _ _ later isLater => ?_⟩
    rw [List.mem_singleton.mp isLater]
    exact .inl rfl

end Layered

theorem ParentsFirst.layered {path : Path} (parentsFirst : ParentsFirst path.components) :
    Layered path.components := by
  rw [components_eq] at parentsFirst ⊢
  have behindLead : ∀ component ∈ (splitOn '/' path.spelling).filterMap component?,
      component = .parent ∨ component.isName = true := by
    intro component member
    obtain ⟨segment, -, is⟩ := List.mem_filterMap.mp member
    exact component?_cases is
  have lead : Layered (leadComponents path.lead) ∧
      ∀ component ∈ leadComponents path.lead, component.isName = false := by
    unfold leadComponents
    split
    · exact ⟨List.pairwise_singleton .., fun _ member => by rw [List.mem_singleton.mp member]; rfl⟩
    · split
      · exact ⟨List.pairwise_singleton .., fun _ member => by rw [List.mem_singleton.mp member]; rfl⟩
      · exact ⟨.nil, fun _ member => absurd member List.not_mem_nil⟩
  obtain ⟨-, behind, -⟩ := List.pairwise_append.mp parentsFirst
  refine List.pairwise_append.mpr ⟨lead.1, behind.imp_of_mem ?_, fun earlier first later second => ?_⟩
  · intro earlier later _ second apart
    rcases behindLead later second with isParent | named
    · refine .inr ⟨isParent, ?_⟩
      cases isName : earlier.isName with
      | false => rfl
      | true => exact absurd isParent (apart isName)
    · exact .inl named
  · rcases behindLead later second with isParent | named
    · exact .inr ⟨isParent, lead.2 earlier first⟩
    · exact .inl named

/-! ## How many `..` stay -/

/-- By how much the `..` among segments outnumber the names there and those held before. -/
def surplus (held : Nat) (segments : List Text) : Nat :=
  segments.count parentSegment - (held + segments.countP descends)

/-- The largest surplus on the way along segments. -/
structure IsRise (held : Nat) (segments : List Text) (rise : Nat) : Prop where
  reached : ∃ front, front <+: segments ∧ surplus held front = rise
  largest : ∀ front, front <+: segments → surplus held front ≤ rise

namespace IsRise

variable {held rise : Nat} {segment : Text} {rest : List Text}

theorem nil (held : Nat) : IsRise held [] 0 := by
  have none : surplus held [] = 0 := Nat.zero_sub _
  refine ⟨⟨[], List.prefix_rfl, none⟩, fun front within => ?_⟩
  rw [List.prefix_nil.mp within]
  exact Nat.le_of_eq none

/-- A segment that only changes what is held does not change the largest surplus. -/
theorem cons {heldBehind : Nat} (behind : IsRise heldBehind rest rise)
    (same : ∀ front, surplus held (segment :: front) = surplus heldBehind front) :
    IsRise held (segment :: rest) rise := by
  obtain ⟨⟨front, within, reached⟩, largest⟩ := behind
  refine ⟨⟨segment :: front, List.cons_prefix_cons.mpr ⟨rfl, within⟩, by rw [same, reached]⟩, ?_⟩
  intro front within
  rcases List.prefix_cons_iff.mp within with rfl | ⟨behind, rfl, further⟩
  · simp [surplus]
  · rw [same]
    exact largest behind further

/-- Where nothing is held, a `..` adds one. -/
theorem parent (behind : IsRise 0 rest rise) : IsRise 0 (parentSegment :: rest) (rise + 1) := by
  have more : ∀ front, surplus 0 (parentSegment :: front) =
      front.count parentSegment + 1 - front.countP descends := by
    intro front
    simp [surplus, show descends parentSegment = false from rfl]
  obtain ⟨⟨front, within, reached⟩, largest⟩ := behind
  refine ⟨?_, fun front within => ?_⟩
  · by_cases level : rise = 0
    · exact ⟨[parentSegment], List.cons_prefix_cons.mpr ⟨rfl, List.nil_prefix⟩, by rw [more, level]; rfl⟩
    · refine ⟨parentSegment :: front, List.cons_prefix_cons.mpr ⟨rfl, within⟩, ?_⟩
      rw [more]
      unfold surplus at reached
      omega
  · rcases List.prefix_cons_iff.mp within with rfl | ⟨behind, rfl, further⟩
    · simp [surplus]
    · have bound := largest behind further
      rw [more]
      unfold surplus at bound
      omega

end IsRise

/-- On a walk from components where no `..` is behind a name, none ever is. As many `..` are added as
outnumber the names at most. -/
theorem Layered.foldl_advance {components : List Component} (layered : Layered components)
    (segments : List Text) :
    Layered (segments.foldl advance components) ∧
      ∃ rise, IsRise (components.countP Component.isName) segments rise ∧
        (segments.foldl advance components).count .parent = components.count .parent + rise := by
  induction segments generalizing components with
  | nil => exact ⟨layered, 0, IsRise.nil _, rfl⟩
  | cons segment rest ih =>
      obtain ⟨layeredBehind, rise, isRise, count⟩ := ih (layered.advance_segment segment)
      refine ⟨layeredBehind, ?_⟩
      rw [List.foldl_cons, count]
      -- A void segment changes nothing, a `..` takes back a name if one is held, and a name is held from there on.
      rcases segment_cases segment with void | rfl | named
      · have noParent : segment ≠ parentSegment := by
          rintro rfl
          cases void
        rw [advance_void void] at isRise ⊢
        exact ⟨rise, isRise.cons fun front => by simp [surplus, descends, void, noParent], rfl⟩
      · rcases layered.parent_cases with ⟨front, name, rfl, taken⟩ | ⟨unnamed, kept⟩
        · rw [taken] at isRise ⊢
          refine ⟨rise, isRise.cons fun more => ?_, by simp⟩
          simp [surplus, show descends parentSegment = false from rfl, Component.isName]
          omega
        · have nothingHeld : components.countP Component.isName = 0 := by
            rw [List.countP_eq_zero]
            intro component member
            simp [unnamed component member]
          rw [kept, List.countP_append, nothingHeld] at isRise
          rw [kept, nothingHeld]
          exact ⟨rise + 1, IsRise.parent isRise, by simp; omega⟩
      · have noParent : segment ≠ parentSegment := by
          rintro rfl
          cases named
        rw [advance_name named] at isRise ⊢
        refine ⟨rise, isRise.cons fun front => ?_, by simp⟩
        simp [surplus, named, noParent, Component.isName]
        omega

/-! ## The laws of following -/

/-- A specifier in two parts is followed part by part. Specifiers with the same segments but for void ones
lead to the same place, and so does one with a name and a `..` between its segments. From a directory
without a `..` behind a name no specifier leads to a place with one, and as many `..` are added as
outnumber names at most in the first segments of the specifier. -/
theorem follow_laws (directory : Path) :
    (∀ left right : Text, (directory.follow (left ++ '/' :: right)).components =
      ((directory.follow left).follow right).components) ∧
    (∀ specifier other : Text,
      (splitOn '/' specifier).filter (!isVoid ·) = (splitOn '/' other).filter (!isVoid ·) →
      (directory.follow specifier).components = (directory.follow other).components) ∧
    (∀ (specifier detour segment : Text) (front back : List Text), descends segment = true →
      splitOn '/' specifier = front ++ back →
      splitOn '/' detour = front ++ segment :: parentSegment :: back →
      (directory.follow detour).components = (directory.follow specifier).components) ∧
    (ParentsFirst directory.components → ∀ specifier : Text,
      ParentsFirst (directory.follow specifier).components ∧
      ∃ rise, IsRise (directory.components.countP Component.isName) (splitOn '/' specifier) rise ∧
        (directory.follow specifier).components.count .parent =
          directory.components.count .parent + rise) := by
  refine ⟨components_follow_append directory, ?_, ?_, ?_⟩
  · intro specifier other same
    rw [components_follow, components_follow, ← foldl_advance_solid, same, foldl_advance_solid]
  · intro specifier detour segment front back named plain around
    rw [components_follow, components_follow, plain, around, foldl_advance_detour named]
  · intro parentsFirst specifier
    obtain ⟨layered, rise, isRise, count⟩ :=
      parentsFirst.layered.foldl_advance (splitOn '/' specifier)
    rw [components_follow]
    exact ⟨layered.parentsFirst, rise, isRise, count⟩

/-- Behind `../a` a specifier that leads above its start twice, once by way of a detour. -/
theorem follow_laws_above :
    let directory : Path := ⟨"../a".toList⟩
    ((directory.follow "..//x".toList).components =
        ((directory.follow "..".toList).follow "/x".toList).components ∧
      (splitOn '/' "..//x".toList).filter (!isVoid ·) = (splitOn '/' ".././x".toList).filter (!isVoid ·) ∧
      (directory.follow "..//x".toList).components = (directory.follow ".././x".toList).components) ∧
    (descends ['n'] = true ∧ splitOn '/' "../n/../x".toList = [parentSegment] ++ ['n'] :: parentSegment :: [['x']] ∧
      (directory.follow "../n/../x".toList).components = (directory.follow "../x".toList).components) ∧
    ParentsFirst directory.components ∧
    ParentsFirst (directory.follow "../../n/../../x".toList).components ∧
    ∃ rise, IsRise (directory.components.countP Component.isName) (splitOn '/' "../../n/../../x".toList) rise ∧
      (directory.follow "../../n/../../x".toList).components.count .parent =
        directory.components.count .parent + rise := by
  intro directory
  have parentsFirst : ParentsFirst directory.components := by
    unfold ParentsFirst
    decide
  have named : descends ['n'] = true := by decide
  have around : splitOn '/' "../n/../x".toList = [parentSegment] ++ ['n'] :: parentSegment :: [['x']] := by
    decide
  have same : (splitOn '/' "..//x".toList).filter (!isVoid ·) =
      (splitOn '/' ".././x".toList).filter (!isVoid ·) := by decide
  obtain ⟨parts, void, detour, rises⟩ := follow_laws directory
  exact ⟨⟨parts "..".toList "/x".toList, same, void _ _ same⟩,
    ⟨named, around, detour "../x".toList _ ['n'] [parentSegment] [['x']] named (by decide) around⟩,
    parentsFirst, rises parentsFirst _⟩

end Path

end Relink
