import Mathlib.Data.List.TakeWhile
import Relink.Build.Run
import Relink.Proofs.FileTree.Distinct

/-!
# What a build writes below its output

An asset keeps its path, and the module of an entry point gets another extension. So two of these paths are equal
only where two entry points of a directory differ in nothing but their extensions, or where an asset already has
the extension of the emitted modules.
-/

set_option autoImplicit false

namespace Relink

namespace Path

/-! ## Names and their extensions -/

theorem splitName_extended {stem ending : Text} (named : stem ≠ []) (noPoint : '.' ∉ ending) :
    splitName (stem ++ '.' :: ending) = (stem, some ending) := by
  have last : ((stem ++ '.' :: ending).reverse.takeWhile (· != '.')).reverse = ending := by
    have others : ∀ c ∈ ending.reverse, (c != '.') = true := fun c member =>
      bne_iff_ne.mpr fun same => noPoint (same ▸ List.mem_reverse.mp member)
    rw [List.reverse_append, List.reverse_cons, List.append_assoc, List.takeWhile_append_of_pos others]
    simp
  have front : (stem ++ '.' :: ending).take ((stem ++ '.' :: ending).length - ending.length - 1) = stem := by
    rw [List.length_append, List.length_cons, show stem.length + (ending.length + 1) - ending.length - 1 =
      stem.length by omega, List.take_left]
  rw [splitName]
  simp only [last, front]
  simp [named]

theorem eq_of_splitName {name stem ending : Text} (split : splitName name = (stem, some ending)) :
    name = stem ++ '.' :: ending := by
  unfold splitName at split
  simp only at split
  split at split
  · rename_i extended
    rw [Bool.and_eq_true, List.contains_iff_mem] at extended
    rw [Prod.mk.injEq, Option.some.injEq] at split
    obtain ⟨rfl, rfl⟩ := split
    have whole := @List.takeWhile_append_dropWhile _ (· != '.') name.reverse
    have goesOn : name.reverse.dropWhile (· != '.') ≠ [] := by
      rw [Ne, List.dropWhile_eq_nil_iff]
      exact fun none => by simpa using none '.' (List.mem_reverse.mpr extended.1)
    obtain ⟨point, rest, behind⟩ := List.exists_cons_of_ne_nil goesOn
    have isPoint : point = '.' := by
      have first := List.head?_dropWhile_not (· != '.') name.reverse
      rw [behind] at first
      simpa using first
    rw [behind, isPoint] at whole
    have forward := congrArg List.reverse whole
    rw [List.reverse_append, List.reverse_cons, List.reverse_reverse, List.append_assoc, List.singleton_append]
      at forward
    generalize (name.reverse.takeWhile (· != '.')).reverse = ending at forward ⊢
    rw [← forward, List.length_append, List.length_cons, show rest.reverse.length + (ending.length + 1) -
      ending.length - 1 = rest.reverse.length by omega, List.take_left]
  · cases split

theorem no_point_of_splitName {name ending : Text} (extended : (splitName name).2 = some ending) : '.' ∉ ending := by
  unfold splitName at extended
  simp only at extended
  split at extended
  · rw [Option.some.injEq] at extended
    rw [← extended, List.mem_reverse]
    exact fun point => by simpa using List.mem_takeWhile_imp point
  · cases extended

theorem stem_ne_nil {name : Text} (named : name ≠ []) : (splitName name).1 ≠ [] := by
  unfold splitName
  simp only
  split
  · rename_i extended
    simpa using (Bool.and_eq_true_iff.mp extended).2
  · exact named

/-- Whether two paths differ in nothing but an extension: they are in one directory and have one stem. -/
def SharesStem (one other : Path) : Prop := one.parent? = other.parent? ∧ one.stem? = other.stem?

instance (one other : Path) : Decidable (one.SharesStem other) := inferInstanceAs (Decidable (_ ∧ _))

section Location

variable {front : Location} {name : Text} (each : ∀ segment ∈ front ++ [name], isName segment = true)

include each

theorem parent?_location : (Location.path (front ++ [name])).parent? = some (Location.path front) := by
  rw [parent?, segments_location each, solid_location each, lead_location each, List.dropLast_concat]
  have solidFront : solid front = front := by
    rcases List.eq_nil_or_concat front with rfl | ⟨higher, last, rfl⟩
    · rfl
    · rw [List.concat_eq_append] at each ⊢
      exact solid_location fun segment member => each segment (List.mem_append_left _ member)
  rw [solidFront]
  cases front <;> rfl

theorem stem?_location : (Location.path (front ++ [name])).stem? = some (splitName name).1 := by
  rw [stem?, fileName?_location each, Option.map_some]

theorem extension?_location : (Location.path (front ++ [name])).extension? = (splitName name).2 := by
  rw [extension?, fileName?_location each, Option.bind_some]

end Location

end Path

theorem ModuleExtension.no_point (extension : ModuleExtension) : '.' ∉ extension.spelling := by
  cases extension <;> decide

namespace Build

section Emitted

variable {one other : Location} (below : one.IsBelow) (otherBelow : other.IsBelow) (extension : ModuleExtension)

include below

/-- A path is that of the emitted module where it differs from the entry point in nothing but the extension, which
is the one of emitted modules. -/
theorem eq_emittedPath_iff {asset : Location} (assetBelow : asset.IsBelow) :
    Location.path asset = emittedPath (Location.path one) extension ↔
      (Location.path asset).SharesStem (Location.path one) ∧
        (Location.path asset).extension? = some extension.spelling := by
  obtain ⟨front, name, rfl⟩ := (List.eq_nil_or_concat one).resolve_left below.1
  obtain ⟨higher, last, rfl⟩ := (List.eq_nil_or_concat asset).resolve_left assetBelow.1
  simp only [List.concat_eq_append] at below assetBelow ⊢
  have frontNames : ∀ segment ∈ front, Path.isName segment = true := fun segment member =>
    below.2 segment (List.mem_append_left _ member)
  have higherNames : ∀ segment ∈ higher, Path.isName segment = true := fun segment member =>
    assetBelow.2 segment (List.mem_append_left _ member)
  have named : name ≠ [] := Path.isVoid_ne_nil (Path.isName_iff.mp (below.2 name (by simp))).1
  have emitted := Path.splitName_extended (Path.stem_ne_nil named) extension.no_point
  rw [emittedPath, Path.withExtension_location below.2, Path.SharesStem, Path.parent?_location below.2,
    Path.parent?_location assetBelow.2, Path.stem?_location below.2, Path.stem?_location assetBelow.2,
    Path.extension?_location assetBelow.2, Option.some.injEq, Option.some.injEq]
  constructor
  · intro same
    have names : ∀ segment ∈ front ++ [(Path.splitName name).1 ++ '.' :: extension.spelling],
        Path.isName segment = true := List.forall_mem_append.mpr
      ⟨frontNames, by simpa using Path.isName_emitted (below.2 name (by simp)) extension⟩
    have places := Location.path_injective assetBelow.2 names same
    obtain ⟨rfl, last⟩ := List.append_inj' places rfl
    rw [List.cons.injEq] at last
    rw [last.1, emitted]
    exact ⟨⟨rfl, rfl⟩, rfl⟩
  · rintro ⟨⟨directories, stems⟩, ending⟩
    have split : Path.splitName last = ((Path.splitName name).1, some extension.spelling) := Prod.ext stems ending
    rw [Location.path_injective higherNames frontNames directories, Path.eq_of_splitName split]

include otherBelow in
/-- Modules are emitted to one path where the entry points differ in nothing but their extensions. -/
theorem emittedPath_eq_iff : emittedPath (Location.path one) extension = emittedPath (Location.path other) extension ↔
    (Location.path one).SharesStem (Location.path other) := by
  have emittedBelow := emittedLocation_isBelow below extension
  have self := emittedPath_location below extension
  rw [self, eq_emittedPath_iff otherBelow extension emittedBelow]
  obtain ⟨⟨directory, stem⟩, ending⟩ := (eq_emittedPath_iff below extension emittedBelow).mp self.symm
  rw [Path.SharesStem, directory, stem, ending, Path.SharesStem]
  exact and_iff_left rfl

end Emitted

/-! ## The targets of a build -/

/-- Whether no two files of a build get one path below the output: no two entry points differ in nothing but their
extensions, and no asset is named as an entry point is but with the extension of emitted modules. -/
structure SourceListing.IsApart (sources : SourceListing) (extension : ModuleExtension) : Prop where
  modules : sources.entryPoints.Pairwise fun one other => ¬ one.SharesStem other
  assets : ∀ asset ∈ sources.assets, ∀ entry ∈ sources.entryPoints, asset.SharesStem entry →
    asset.extension? ≠ some extension.spelling

/-- The targets of a build of distinct sources are distinct where no two of its files get one path. -/
theorem SourceListing.targets_nodup {sources : SourceListing} (extension : ModuleExtension)
    (distinct : sources.assets.Nodup)
    (assets : ∀ asset ∈ sources.assets, ∃ names, Location.IsBelow names ∧ asset = Location.path names)
    (entries : ∀ entry ∈ sources.entryPoints, ∃ names, Location.IsBelow names ∧ entry = Location.path names) :
    (sources.assets ++ sources.entryPoints.map (emittedPath · extension)).Nodup ↔ sources.IsApart extension := by
  have modules : (sources.entryPoints.map (emittedPath · extension)).Nodup ↔
      sources.entryPoints.Pairwise fun one other => ¬ one.SharesStem other := by
    rw [List.Nodup, List.pairwise_map]
    refine List.Pairwise.iff_of_mem fun {one other} isOne isOther => ?_
    obtain ⟨names, below, rfl⟩ := entries one isOne
    obtain ⟨otherNames, otherBelow, rfl⟩ := entries other isOther
    rw [Ne, emittedPath_eq_iff below otherBelow]
  have copies : (∀ asset ∈ sources.assets, ∀ module ∈ sources.entryPoints.map (emittedPath · extension),
      asset ≠ module) ↔ ∀ asset ∈ sources.assets, ∀ entry ∈ sources.entryPoints, asset.SharesStem entry →
        asset.extension? ≠ some extension.spelling := by
    simp only [List.forall_mem_map]
    refine forall₂_congr fun asset isAsset => forall₂_congr fun entry isEntry => ?_
    obtain ⟨names, below, rfl⟩ := assets asset isAsset
    obtain ⟨entryNames, entryBelow, rfl⟩ := entries entry isEntry
    rw [Ne, eq_emittedPath_iff entryBelow extension below, not_and]
  rw [List.nodup_append, and_iff_right distinct, modules, copies]
  exact ⟨fun ⟨modules, assets⟩ => ⟨modules, assets⟩, fun ⟨modules, assets⟩ => ⟨modules, assets⟩⟩

example : [Path.ofString "lib/a.ts", Path.ofString "lib/a.tsx"].map (emittedPath · .js) =
    [.ofString "lib/a.js", .ofString "lib/a.js"] := by decide

end Build

end Relink
