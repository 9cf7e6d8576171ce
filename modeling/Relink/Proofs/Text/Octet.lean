import Mathlib.Data.List.Induction
import Relink.Text.Octet

/-!
# Bytes of texts

A text with carriers stands for bytes. Texts are ordered strictly by them, and any two that differ are ordered one
way or the other. Bytes are read as characters where they encode some, and then the characters end as the text does.
-/

set_option autoImplicit false

namespace Relink

variable {one other third : Text}

/-! ## Order of characters -/

namespace Text

@[simp] theorem before_nil (text : Text) : before text [] = false := by cases text <;> rfl

theorem before_cons_same (c : Char) (one other : Text) : before (c :: one) (c :: other) = before one other := by
  rw [before, if_pos rfl]

theorem before_cons_other {c d : Char} (apart : c ≠ d) (one other : Text) :
    before (c :: one) (d :: other) = decide (c.val < d.val) := by
  rw [before, if_neg apart]

private theorem val_ne {c d : Char} (apart : c ≠ d) : c.val.toNat ≠ d.val.toNat := fun same =>
  apart (Char.ext (UInt32.toNat_inj.mp same))

theorem before_asymm (first : before one other = true) : before other one = false := by
  fun_induction before one other with
  | case1 => cases first
  | case2 => rfl
  | case3 => cases first
  | case4 one c other ih => rw [before_cons_same, ih first]
  | case5 c one d other apart =>
      have less : c.val < d.val := by simpa using first
      rw [before_cons_other (Ne.symm apart), decide_eq_false_iff_not]
      rw [UInt32.lt_iff_toNat_lt] at less ⊢
      omega

theorem before_trans (first : before one other = true) (next : before other third = true) :
    before one third = true := by
  induction one generalizing other third with
  | nil =>
      cases third with
      | nil => simp at next
      | cons c third => rfl
  | cons c one ih =>
      cases other with
      | nil => simp at first
      | cons d other =>
          cases third with
          | nil => simp at next
          | cons e third =>
              -- The first place where the outer two differ is the earlier of the two places between.
              by_cases left : c = d <;> by_cases right : d = e
              · subst left right
                rw [before_cons_same] at *
                exact ih first next
              · subst left
                rw [before_cons_other right] at *
                exact next
              · subst right
                rw [before_cons_other left] at *
                exact first
              · rw [before_cons_other left, decide_eq_true_iff, UInt32.lt_iff_toNat_lt] at first
                rw [before_cons_other right, decide_eq_true_iff, UInt32.lt_iff_toNat_lt] at next
                have apart : c ≠ e := by
                  rintro rfl
                  omega
                rw [before_cons_other apart, decide_eq_true_iff, UInt32.lt_iff_toNat_lt]
                omega

theorem before_of_ne (apart : one ≠ other) (not : before one other = false) : before other one = true := by
  fun_induction before one other with
  | case1 => exact absurd rfl apart
  | case2 => cases not
  | case3 => rfl
  | case4 one c other ih =>
      rw [before_cons_same]
      exact ih (fun same => apart (congrArg _ same)) not
  | case5 c one d other differ =>
      have more : ¬ c.val < d.val := by simpa using not
      have values := val_ne differ
      rw [before_cons_other (Ne.symm differ), decide_eq_true_iff]
      rw [UInt32.lt_iff_toNat_lt] at more ⊢
      omega

end Text

namespace Octet

/-! ## Order of bytes -/

theorem before_iff : before one other = true ↔
    bytesOf one < bytesOf other ∨ bytesOf one = bytesOf other ∧ Text.before one other = true := by
  rw [before]
  split
  · rename_i same
    simp [same, List.lt_irrefl]
  · rename_i apart
    simp [apart]

theorem before_asymm (first : before one other = true) : before other one = false := by
  rw [← Bool.not_eq_true, before_iff]
  rcases before_iff.mp first with less | ⟨same, behind⟩
  · rintro (more | ⟨same, -⟩)
    · exact List.lt_asymm less more
    · exact List.lt_irrefl _ (same ▸ less)
  · rintro (more | ⟨-, ahead⟩)
    · exact List.lt_irrefl _ (same ▸ more)
    · rw [Text.before_asymm behind] at ahead
      cases ahead

theorem before_trans (first : before one other = true) (next : before other third = true) :
    before one third = true := by
  rw [before_iff] at *
  rcases first with less | ⟨same, behind⟩ <;> rcases next with more | ⟨alike, ahead⟩
  · exact .inl (List.lt_trans less more)
  · exact .inl (alike ▸ less)
  · exact .inl (same ▸ more)
  · exact .inr ⟨same.trans alike, Text.before_trans behind ahead⟩

theorem before_of_ne (apart : one ≠ other) (not : before one other = false) : before other one = true := by
  rw [← Bool.not_eq_true, before_iff, not_or, List.not_lt] at not
  rw [before_iff]
  by_cases same : bytesOf one = bytesOf other
  · refine .inr ⟨same.symm, Text.before_of_ne apart ?_⟩
    rw [← Bool.not_eq_true]
    exact fun before => not.2 ⟨same, before⟩
  · exact .inl (Std.lt_of_le_of_ne not.1 (Ne.symm same))

/-! ## Reading -/

/-- Whether the bytes of a text are those of characters. -/
def ReadsAs (text chars : Text) : Prop := encode chars = bytesOf text

/-- Whether the bytes of a text are UTF-8. -/
def IsUnicode (text : Text) : Prop := ∃ chars, ReadsAs text chars

theorem utf8Decode?_eq_some_iff {text chars : Text} :
    (bytesOf text).toByteArray.utf8Decode?.map Array.toList = some chars ↔ ReadsAs text chars := by
  constructor
  · intro decoded
    obtain ⟨read, isRead, rfl⟩ := Option.map_eq_some_iff.mp decoded
    have whole : read.toList.utf8Encode = (bytesOf text).toByteArray := by
      have back := @ByteArray.utf8Encode_get_utf8Decode? (bytesOf text).toByteArray (by rw [isRead]; rfl)
      rwa [Option.get_of_eq_some _ isRead] at back
    exact List.toByteArray_inj.mp whole
  · intro reads
    have whole : (bytesOf text).toByteArray = chars.utf8Encode := congrArg List.toByteArray reads.symm
    rw [whole, List.utf8Decode?_utf8Encode]
    rfl

theorem bytesOf_of_plain {text : Text} (plain : ∀ c ∈ text, carried? c = none) : bytesOf text = encode text := by
  induction text with
  | nil => rfl
  | cons c rest ih =>
      rw [List.forall_mem_cons] at plain
      rw [bytesOf, encode, List.flatMap_cons, List.flatMap_cons, bytesOfChar, plain.1]
      exact congrArg _ (ih plain.2)

theorem unicode?_eq_some_iff {text chars : Text} : unicode? text = some chars ↔ ReadsAs text chars := by
  rw [← utf8Decode?_eq_some_iff, unicode?]
  split
  · rename_i plain
    have self : ReadsAs text text := by
      rw [ReadsAs, bytesOf_of_plain]
      simpa [List.all_eq_true] using plain
    rw [utf8Decode?_eq_some_iff.mpr self]
  · rfl

example : unicode? (carrier 0xFF :: ".d".toList) = none := by decide +kernel

/-! ## Endings -/

private theorem concat_suffix_concat {α : Type} {front back : List α} {a b : α} :
    front ++ [a] <:+ back ++ [b] ↔ front <:+ back ∧ a = b := by
  have sizes : [a].length = [b].length := rfl
  rw [List.suffix_append_inj_of_length_eq sizes, List.singleton_inj]

/-- Whether a code gives each character of ASCII its own byte and keeps those bytes from all others. -/
structure IsAsciiCode (code : Char → List UInt8) : Prop where
  ascii : ∀ {c : Char}, c.toNat < 0x80 → code c = [UInt8.ofNat c.toNat]
  others : ∀ {c : Char}, 0x80 ≤ c.toNat → ∀ byte ∈ code c, 0x80 ≤ byte.toNat
  ne_nil : ∀ c : Char, code c ≠ []

theorem isAsciiCode_utf8 : IsAsciiCode String.utf8EncodeChar where
  ascii {c} less := by
    have small : c.val.toNat ≤ 127 := Nat.le_of_lt_succ less
    simp only [String.utf8EncodeChar, if_pos small]
    rfl
  others {c} more byte member := by
    have large : ¬ c.val.toNat ≤ 127 := Nat.not_le.mpr more
    simp only [String.utf8EncodeChar, if_neg large] at member
    split at member
    · simp only [List.mem_cons, List.not_mem_nil, or_false] at member
      rcases member with rfl | rfl <;> simp <;> omega
    split at member <;> simp only [List.mem_cons, List.not_mem_nil, or_false] at member
    · rcases member with rfl | rfl | rfl <;> simp <;> omega
    · rcases member with rfl | rfl | rfl | rfl <;> simp <;> omega
  ne_nil _ := String.utf8EncodeChar_ne_nil

theorem carried?_eq_none {c : Char} (less : c.toNat < 0x80) : carried? c = none := by
  rw [carried?, if_neg]
  unfold firstCarrier
  omega

theorem lt_lastCarrier (c : Char) : c.toNat < firstCarrier + 0x100 := by
  have valid : c.toNat < 0xD800 ∨ 0xDFFF < c.toNat ∧ c.toNat < 0x110000 := c.valid
  have all : firstCarrier + 0x100 = 0x110000 := by decide
  omega

theorem isAsciiCode_bytesOfChar : IsAsciiCode bytesOfChar where
  ascii less := by
    rw [bytesOfChar, carried?_eq_none less]
    exact isAsciiCode_utf8.ascii less
  others {c} more byte member := by
    rw [bytesOfChar] at member
    split at member
    · rename_i carriedByte carries
      obtain ⟨isCarrier, isByte⟩ := Option.ite_none_right_eq_some.mp carries
      rw [← Option.some.inj isByte, List.mem_singleton] at member
      have last := lt_lastCarrier c
      have fits : c.toNat - firstCarrier < UInt8.size := by
        rw [UInt8.size]
        omega
      rw [member, UInt8.toNat_ofNat_of_lt' fits]
      omega
    · exact isAsciiCode_utf8.others more byte member
  ne_nil c := by
    rw [bytesOfChar]
    split
    · exact List.cons_ne_nil _ _
    · exact isAsciiCode_utf8.ne_nil c

namespace IsAsciiCode

variable {code : Char → List UInt8} (is : IsAsciiCode code) {ending : Text}

include is

/-- The byte of a character of ASCII is in no other character. -/
theorem eq_of_mem {c d : Char} (ascii : c.toNat < 0x80) (member : UInt8.ofNat c.toNat ∈ code d) : c = d := by
  have own : (UInt8.ofNat c.toNat).toNat = c.toNat := by
    rw [UInt8.toNat_ofNat']
    omega
  have also : d.toNat < 0x80 := by
    by_contra more
    have := is.others (Nat.le_of_not_lt more) _ member
    omega
  rw [is.ascii also, List.mem_singleton] at member
  have same := congrArg UInt8.toNat member
  rw [own, UInt8.toNat_ofNat', Nat.mod_eq_of_lt (by omega)] at same
  exact Char.toNat_inj.mp same

/-- A byte of ASCII stands last only where its character does, and then alone. -/
theorem concat_suffix_iff {c d : Char} (ascii : c.toNat < 0x80) {front bytes : List UInt8} :
    front ++ code c <:+ bytes ++ code d ↔ front <:+ bytes ∧ c = d := by
  constructor
  · intro ends
    obtain ⟨init, last, isLast⟩ := (List.eq_nil_or_concat (code d)).resolve_left (is.ne_nil d)
    rw [List.concat_eq_append] at isLast
    have same : c = d := by
      rw [is.ascii ascii, isLast, ← List.append_assoc, concat_suffix_concat] at ends
      exact is.eq_of_mem ascii (by rw [isLast, ends.2]; simp)
    subst same
    rw [is.ascii ascii, concat_suffix_concat] at ends
    exact ⟨ends.1, rfl⟩
  · rintro ⟨ends, rfl⟩
    rw [is.ascii ascii, concat_suffix_concat]
    exact ⟨ends, rfl⟩

theorem suffix_iff (ascii : ∀ c ∈ ending, c.toNat < 0x80) (text : Text) :
    ending.flatMap code <:+ text.flatMap code ↔ ending <:+ text := by
  -- From the end on, one byte of the ending decides on one character of the text.
  induction ending using List.reverseRecOn generalizing text with
  | nil => simp
  | append_singleton ending c ih =>
      rw [List.forall_mem_append, List.forall_mem_singleton] at ascii
      rcases List.eq_nil_or_concat text with rfl | ⟨front, d, rfl⟩
      · simp [is.ne_nil]
      · rw [List.concat_eq_append, List.flatMap_append, List.flatMap_append, List.flatMap_singleton,
          List.flatMap_singleton, is.concat_suffix_iff ascii.2, ih ascii.1, concat_suffix_concat]

end IsAsciiCode

theorem ReadsAs.suffix_iff {text chars ending : Text} (reads : ReadsAs text chars)
    (ascii : ∀ c ∈ ending, c.toNat < 0x80) : ending <:+ chars ↔ ending <:+ text := by
  have same : encode ending = bytesOf ending :=
    (bytesOf_of_plain fun c member => carried?_eq_none (ascii c member)).symm
  have ownBytes := isAsciiCode_utf8.suffix_iff ascii chars
  rw [← ownBytes, ← isAsciiCode_bytesOfChar.suffix_iff ascii text]
  change encode ending <:+ encode chars ↔ bytesOf ending <:+ bytesOf text
  rw [same, reads]

end Octet

end Relink
