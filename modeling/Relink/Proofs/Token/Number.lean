import Relink.Proofs.Token.Run

/-!
# Extent of numbers

A number is a leading part of its text, and the same part of every text that goes on alike behind it.
-/

set_option autoImplicit false

namespace Relink.Token

/-! ## Numbers -/

theorem excludesLimits_isDigit : ExcludesLimits Char.isDigit :=
  excludesLimits_of_all (by decide)

theorem excludesLimits_isHexDigit : ExcludesLimits isHexDigit :=
  excludesLimits_of_all (by decide)

theorem excludesLimits_isBinaryDigit : ExcludesLimits isBinaryDigit :=
  excludesLimits_of_all (by decide)

theorem excludesLimits_isOctalDigit : ExcludesLimits isOctalDigit :=
  excludesLimits_of_all (by decide)

theorem excludesLimits_isExponentMark : ExcludesLimits fun c => c == 'e' || c == 'E' :=
  excludesLimits_of_all (by decide)

theorem excludesLimits_isSign : ExcludesLimits fun c => c == '+' || c == '-' :=
  excludesLimits_of_all (by decide)

theorem excludesLimits_isPoint : ExcludesLimits (· == '.') :=
  excludesLimits_of_all (by decide)

theorem optionalChar_extent {test : Char → Bool} (excludes : ExcludesLimits test) {text chars rest : Text}
    (found : optionalChar test text = (chars, rest)) :
    RunExtent (optionalChar test) (fun other => (chars, other)) text chars rest := by
  cases text with
  | nil =>
      cases found
      refine ⟨rfl, unsealed_nil, fun other same => ?_⟩
      obtain rfl := same.eq_nil
      rfl
  | cons c after =>
      cases passes : test c with
      | true =>
          simp only [optionalChar, passes, if_true, Prod.mk.injEq] at found
          obtain ⟨rfl, rfl⟩ := found
          refine ⟨rfl, unsealed_cons (excludes.isSeal passes) unsealed_nil, fun other _ => ?_⟩
          simp [optionalChar, passes]
      | false =>
          simp only [optionalChar, passes, Bool.false_eq_true, if_false, Prod.mk.injEq] at found
          obtain ⟨rfl, rfl⟩ := found
          refine ⟨rfl, unsealed_nil, fun other same => ?_⟩
          obtain ⟨d, behind, rfl, again⟩ := same.test excludes rfl
          simp [optionalChar, again.trans passes]

/-- The end of a number of another radix behind its digits. -/
def radixEnding (lead digits : Text) : Text → Kind × Text × Text
  | 'n' :: rest => (.literal .bigInt, lead ++ digits ++ ['n'], rest)
  | rest => (.literal .number, lead ++ digits, rest)

theorem radixEnding_plain {lead digits text : Text} (noMark : text.head? ≠ some 'n') :
    radixEnding lead digits text = (.literal .number, lead ++ digits, text) := by
  unfold radixEnding
  split
  · exact absurd rfl noMark
  · rfl

theorem radixEnding_extent {lead digits text chars rest : Text} {kind : Kind}
    (found : radixEnding lead digits text = (kind, chars, rest)) :
    ∃ mark, chars = lead ++ (digits ++ mark) ∧
      RunExtent (radixEnding lead digits) (fun other => (kind, chars, other)) text mark rest := by
  by_cases marked : text.head? = some 'n'
  · obtain ⟨after, rfl⟩ := eq_cons_of_head? marked
    cases found
    exact ⟨['n'], List.append_assoc .., rfl, unsealed_cons (by decide) unsealed_nil, fun _ _ => rfl⟩
  · rw [radixEnding_plain marked] at found
    cases found
    refine ⟨[], by simp, rfl, unsealed_nil, fun other same => radixEnding_plain fun marks => ?_⟩
    exact marked (same.head?_eq_some (by decide) marks)

theorem radixNumber_extent {isDigit : Char → Bool} (excludes : ExcludesLimits isDigit)
    {lead text chars rest : Text} {kind : Kind} (found : radixNumber isDigit lead text = (kind, chars, rest)) :
    ∃ digits, chars = lead ++ digits ∧
      RunExtent (radixNumber isDigit lead) (fun other => (kind, chars, other)) text digits rest := by
  have ended : radixEnding lead (text.takeWhile isDigit) (text.dropWhile isDigit) = (kind, chars, rest) := found
  obtain ⟨mark, is, ending⟩ := radixEnding_extent ended
  exact ⟨_, is, (spanWhile_extent excludes text).andThen (radixEnding lead) ending⟩

/-- The digits of an exponent behind its mark and its sign. -/
def powerDigits (e : Char) (sign text : Text) : Except Fault (Text × Text) :=
  let digits := spanWhile Char.isDigit text
  .ok (e :: sign ++ digits.1, digits.2)

/-- An exponent behind its mark. -/
def power (e : Char) (text : Text) : Except Fault (Text × Text) :=
  let sign := optionalChar (fun c => c == '+' || c == '-') text
  powerDigits e sign.1 sign.2

theorem power_extent {e : Char} {text chars rest : Text} (found : power e text = .ok (chars, rest)) :
    ∃ digits, chars = e :: digits ∧ RunExtent (power e) (fun other => .ok (chars, other)) text digits rest := by
  cases signed : optionalChar (fun c => c == '+' || c == '-') text with
  | mk sign behind =>
      simp only [power, signed, powerDigits, spanWhile, Except.ok.injEq, Prod.mk.injEq] at found
      obtain ⟨rfl, rfl⟩ := found
      refine ⟨_, rfl, (optionalChar_extent excludesLimits_isSign signed).andThen (powerDigits e) ?_⟩
      exact (spanWhile_extent excludesLimits_isDigit behind).map fun digits =>
        Except.ok (e :: sign ++ digits.1, digits.2)

theorem exponent_marked {e : Char} {text : Text} (marks : (e == 'e' || e == 'E') = true) (goesOn : text ≠ []) :
    exponent (e :: text) = power e text := by
  cases text with
  | nil => exact absurd rfl goesOn
  | cons next after => exact if_pos marks

theorem exponent_absent {text : Text}
    (noMark : ∀ e, text.head? = some e → (e == 'e' || e == 'E') = false) : exponent text = .ok ([], text) := by
  cases text with
  | nil => rfl
  | cons e after => simp [exponent, noMark e rfl]

theorem isSeal_exponentMark {e : Char} (marks : (e == 'e' || e == 'E') = true) :
    Text.isSeal e = false := by
  simp only [Bool.or_eq_true, beq_iff_eq] at marks
  rcases marks with rfl | rfl <;> decide

theorem exponent_extent {text chars rest : Text} (found : exponent text = .ok (chars, rest)) :
    RunExtent exponent (fun other => .ok (chars, other)) text chars rest := by
  by_cases marked : ∃ e after, text = e :: after ∧ (e == 'e' || e == 'E') = true
  · obtain ⟨e, after, rfl, marks⟩ := marked
    have goesOn : after ≠ [] := by
      rintro rfl
      simp [exponent, marks] at found
    rw [exponent_marked marks goesOn] at found
    obtain ⟨digits, rfl, extent⟩ := power_extent found
    refine ⟨congrArg (e :: ·) extent.split, unsealed_cons (isSeal_exponentMark marks) extent.unsealed,
      fun other same => ?_⟩
    rw [List.cons_append, exponent_marked marks, extent.again other same]
    -- Where something follows the mark in the one text, something follows it in the other.
    intro nothing
    obtain ⟨c, behind, rfl⟩ := List.exists_cons_of_ne_nil goesOn
    obtain ⟨d, _, shape, -⟩ := (extent.alike same).test excludesLimits_isSign rfl
    rw [nothing] at shape
    cases shape
  · have noMark (e : Char) (first : text.head? = some e) : (e == 'e' || e == 'E') = false := by
      obtain ⟨after, rfl⟩ := eq_cons_of_head? first
      exact Bool.eq_false_iff.mpr fun marks => marked ⟨e, after, rfl, marks⟩
    rw [exponent_absent noMark] at found
    cases found
    refine ⟨rfl, unsealed_nil, fun other same => exponent_absent fun d first => ?_⟩
    obtain ⟨e, behind, rfl, again⟩ := same.test_left excludesLimits_isExponentMark first
    exact again.symm.trans (noMark e rfl)

/-- A decimal number with what was read as its exponent. -/
def withPower (front : Text) : Except Fault (Text × Text) → Except Fault (Kind × Text × Text)
  | .error fault => .error fault
  | .ok (power, rest) => .ok (.literal .number, front ++ power, rest)

theorem withPower_eq_ok {front chars rest : Text} {read : Except Fault (Text × Text)} {kind : Kind}
    (found : withPower front read = .ok (kind, chars, rest)) :
    kind = .literal .number ∧ ∃ power, read = .ok (power, rest) ∧ chars = front ++ power := by
  cases read with
  | error fault => cases found
  | ok parts =>
      cases found
      exact ⟨rfl, _, rfl, rfl⟩

/-- A decimal number behind its digits and its point. -/
def decimalPlaces (digits point text : Text) : Except Fault (Kind × Text × Text) :=
  let places := spanWhile Char.isDigit text
  withPower (digits ++ point ++ places.1) (exponent places.2)

/-- A decimal number behind its digits. -/
def decimalEnding (digits : Text) : Text → Except Fault (Kind × Text × Text)
  | 'n' :: rest => .ok (.literal .bigInt, digits ++ ['n'], rest)
  | text =>
    let point := optionalChar (· == '.') text
    decimalPlaces digits point.1 point.2

theorem decimalEnding_plain {digits text : Text} (noMark : text.head? ≠ some 'n') :
    decimalEnding digits text =
      decimalPlaces digits (optionalChar (· == '.') text).1 (optionalChar (· == '.') text).2 := by
  unfold decimalEnding
  split
  · exact absurd rfl noMark
  · rfl

theorem decimal_eq (text : Text) :
    decimal text = decimalEnding (spanWhile Char.isDigit text).1 (spanWhile Char.isDigit text).2 := by
  by_cases marked : (spanWhile Char.isDigit text).2.head? = some 'n'
  · obtain ⟨after, behind⟩ := eq_cons_of_head? marked
    simp only [decimal, behind, decimalEnding]
  · rw [decimalEnding_plain marked, decimal]
    dsimp only
    split
    · rename_i behind
      rw [behind] at marked
      exact absurd rfl marked
    · rfl

theorem decimalPlaces_extent {digits point text chars rest : Text} {kind : Kind}
    (found : decimalPlaces digits point text = .ok (kind, chars, rest)) :
    ∃ more, chars = digits ++ (point ++ more) ∧
      RunExtent (decimalPlaces digits point) (fun other => .ok (kind, chars, other)) text more rest := by
  obtain ⟨rfl, power, powered, rfl⟩ := withPower_eq_ok found
  refine ⟨text.takeWhile Char.isDigit ++ power, by simp [spanWhile], ?_⟩
  exact (spanWhile_extent excludesLimits_isDigit text).andThen
    (fun places text => withPower (digits ++ point ++ places) (exponent text))
    ((exponent_extent powered).map (withPower (digits ++ point ++ text.takeWhile Char.isDigit)))

theorem decimalEnding_extent {digits text chars rest : Text} {kind : Kind}
    (found : decimalEnding digits text = .ok (kind, chars, rest)) :
    ∃ more, chars = digits ++ more ∧
      RunExtent (decimalEnding digits) (fun other => .ok (kind, chars, other)) text more rest := by
  by_cases marked : text.head? = some 'n'
  · obtain ⟨after, rfl⟩ := eq_cons_of_head? marked
    cases found
    exact ⟨['n'], rfl, rfl, unsealed_cons (by decide) unsealed_nil, fun _ _ => rfl⟩
  · rw [decimalEnding_plain marked] at found
    cases pointed : optionalChar (· == '.') text with
    | mk point behind =>
    rw [pointed] at found
    obtain ⟨more, is, places⟩ := decimalPlaces_extent found
    have fraction := (optionalChar_extent excludesLimits_isPoint pointed).andThen (decimalPlaces digits) places
    refine ⟨point ++ more, is, fraction.split, fraction.unsealed, fun other same => ?_⟩
    rw [decimalEnding_plain fun marks => marked ((fraction.alike same).head?_eq_some (by decide) marks)]
    exact fraction.again other same

theorem decimal_extent {text chars rest : Text} {kind : Kind}
    (found : decimal text = .ok (kind, chars, rest)) :
    RunExtent decimal (fun other => .ok (kind, chars, other)) text chars rest := by
  rw [decimal_eq] at found
  obtain ⟨more, rfl, ending⟩ := decimalEnding_extent found
  rw [funext decimal_eq]
  exact (spanWhile_extent excludesLimits_isDigit text).andThen decimalEnding ending

theorem decimal_chars_ne_nil {c : Char} {behind chars rest : Text} {kind : Kind}
    (found : decimal (c :: behind) = .ok (kind, chars, rest))
    (starts : c.isDigit = true ∨ c = '.') : chars ≠ [] := by
  rw [decimal_eq] at found
  obtain ⟨more, rfl, -⟩ := decimalEnding_extent found
  cases digit : c.isDigit with
  | true => simp [spanWhile, digit]
  | false =>
      obtain rfl : c = '.' := starts.resolve_left (by simp [digit])
      have pointed : decimalPlaces [] ['.'] behind = .ok (kind, more, rest) := found
      obtain ⟨places, rfl, -⟩ := decimalPlaces_extent pointed
      exact List.cons_ne_nil _ _

/-- Characters that announce another radix behind a zero. -/
def isRadixMark (c : Char) : Bool :=
  c == 'b' || c == 'B' || c == 'x' || c == 'X' || c == 'o' || c == 'O'

/-- The test for digits that a radix mark announces. -/
def radixDigit (mark : Char) : Char → Bool :=
  if mark == 'b' || mark == 'B' then isBinaryDigit
  else if mark == 'x' || mark == 'X' then isHexDigit
  else isOctalDigit

/-- Whether a number of another radix begins a text. -/
def BeginsRadix (text : Text) : Prop := ∃ mark after, text = '0' :: mark :: after ∧ isRadixMark mark = true

theorem number_radix {mark : Char} (marks : isRadixMark mark = true) (rest : Text) :
    number ('0' :: mark :: rest) = .ok (radixNumber (radixDigit mark) ['0', mark] rest) := by
  simp only [isRadixMark, Bool.or_eq_true, beq_iff_eq] at marks
  rcases marks with ((((rfl | rfl) | rfl) | rfl) | rfl) | rfl <;> rfl

theorem number_decimal {text : Text} (plain : ¬ BeginsRadix text) : number text = decimal text := by
  unfold number
  split
  · rename_i mark rest
    have noMark : isRadixMark mark = false := Bool.eq_false_iff.mpr fun marks => plain ⟨mark, rest, rfl, marks⟩
    simp only [isRadixMark, Bool.or_eq_false_iff] at noMark
    simp [noMark]
  · rfl

theorem radixDigit_excludes (mark : Char) : ExcludesLimits (radixDigit mark) := by
  unfold radixDigit
  split
  · exact excludesLimits_isBinaryDigit
  · split
    · exact excludesLimits_isHexDigit
    · exact excludesLimits_isOctalDigit

theorem isSeal_radixMark {mark : Char} (marks : isRadixMark mark = true) :
    Text.isSeal mark = false := by
  simp only [isRadixMark, Bool.or_eq_true, beq_iff_eq] at marks
  rcases marks with ((((rfl | rfl) | rfl) | rfl) | rfl) | rfl <;> decide

theorem isStop_radixMark {mark : Char} (marks : isRadixMark mark = true) :
    Text.isStop mark = false := by
  cases stop : Text.isStop mark with
  | false => rfl
  | true =>
      have seal_ := Text.isSeal_of_isStop stop
      rw [isSeal_radixMark marks] at seal_
      cases seal_

/-- The characters in front and how the text behind them begins decide whether a radix is announced. -/
theorem BeginsRadix.congr {front rest other : Text} (same : Text.EndsLike rest other) (nonempty : front ≠ [])
    (begins : BeginsRadix (front ++ other)) : BeginsRadix (front ++ rest) := by
  obtain ⟨mark, after, shape, marks⟩ := begins
  obtain ⟨c, front, rfl⟩ := List.exists_cons_of_ne_nil nonempty
  obtain ⟨rfl, behind⟩ := List.cons.inj shape
  have first : (front ++ other).head? = some mark := congrArg List.head? behind
  obtain ⟨after, is⟩ :=
    eq_cons_of_head? ((same.append front).head?_eq_some (isStop_radixMark marks) first)
  exact ⟨mark, after, congrArg ('0' :: ·) is, marks⟩

theorem number_extent {text chars rest : Text} {kind : Kind} (found : number text = .ok (kind, chars, rest)) :
    RunExtent number (fun other => .ok (kind, chars, other)) text chars rest := by
  by_cases radix : BeginsRadix text
  · obtain ⟨mark, after, rfl, marks⟩ := radix
    rw [number_radix marks, Except.ok.injEq] at found
    obtain ⟨digits, rfl, split, unsealed, again⟩ := radixNumber_extent (radixDigit_excludes mark) found
    refine ⟨congrArg (fun text => '0' :: mark :: text) split,
      unsealed_cons (by decide) (unsealed_cons (isSeal_radixMark marks) unsealed), fun other same => ?_⟩
    exact (number_radix marks _).trans (congrArg Except.ok (again other same))
  · rw [number_decimal radix] at found
    obtain ⟨split, unsealed, again⟩ := decimal_extent found
    refine ⟨split, unsealed, fun other same => ?_⟩
    rw [← again other same]
    refine number_decimal fun begins => radix ?_
    rw [← split]
    refine begins.congr same ?_
    -- A zero in front is taken as a digit, so a number that takes nothing has none in front.
    rintro rfl
    obtain ⟨mark, after, rfl, -⟩ := begins
    obtain ⟨behind, rfl⟩ := eq_cons_of_head? (same.head?_eq_some (by decide) rfl)
    subst split
    exact absurd rfl (decimal_chars_ne_nil found (.inl (by decide)))

theorem number_chars_ne_nil {c : Char} {behind chars rest : Text} {kind : Kind}
    (found : number (c :: behind) = .ok (kind, chars, rest))
    (starts : c.isDigit = true ∨ c = '.') : chars ≠ [] := by
  by_cases radix : BeginsRadix (c :: behind)
  · obtain ⟨mark, after, shape, marks⟩ := radix
    rw [shape, number_radix marks, Except.ok.injEq] at found
    obtain ⟨digits, rfl, -⟩ := radixNumber_extent (radixDigit_excludes mark) found
    exact List.cons_ne_nil _ _
  · rw [number_decimal radix] at found
    exact decimal_chars_ne_nil found starts

theorem radixNumber_isRunKind (isDigit : Char → Bool) (lead text : Text) :
    isRunKind (radixNumber isDigit lead text).1 = true := by
  unfold radixNumber
  dsimp only
  split <;> rfl

theorem decimal_isRunKind {text chars rest : Text} {kind : Kind}
    (found : decimal text = .ok (kind, chars, rest)) : isRunKind kind = true := by
  unfold decimal at found
  dsimp only at found
  split at found
  · cases found; rfl
  · split at found
    · cases found
    · cases found; rfl

theorem number_isRunKind {text chars rest : Text} {kind : Kind}
    (found : number text = .ok (kind, chars, rest)) : isRunKind kind = true := by
  by_cases radix : BeginsRadix text
  · obtain ⟨mark, after, rfl, marks⟩ := radix
    rw [number_radix marks] at found
    have made := radixNumber_isRunKind (radixDigit mark) ['0', mark] after
    rwa [Except.ok.inj found] at made
  · rw [number_decimal radix] at found
    exact decimal_isRunKind found

end Relink.Token
