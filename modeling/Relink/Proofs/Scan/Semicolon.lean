import Relink.Proofs.Scan.Space

/-!
# Semicolons

A unit that ends with a semicolon is one: strings, templates, elements and groups end with marks of their
own, and nothing else that is read ends with a closing mark. A semicolon is read whatever stands behind it.
-/

set_option autoImplicit false

namespace Relink

open Scan

/-! ## Units of one token -/

/-- Tokens of these kinds are units for themselves. -/
def Kind.isAlone (kind : Kind) : Bool :=
  !kind.isTemplate && kind != .punctuator .chevronLeft && kind.opens?.isNone

theorem plainKind_opens? (before kind : Kind) : (plainKind before kind).opens? = kind.opens? := by
  rcases plainKind_cases before kind with same | ⟨isKeyword, isName⟩
  · rw [same]
  · cases kind with
    | keyword word => rw [isName]; rfl
    | _ => cases isKeyword

theorem foldUnit_alone (inner : Scan Token) (fuel : Nat) (before : Kind) (operand : Bool) {first : Token}
    (alone : first.kind.isAlone = true) :
    foldUnit inner fuel before operand first =
      follow (operandAfter before (plainKind before first.kind)) (plainKind before first.kind) >>=
        fun _ => pure { first with kind := plainKind before first.kind } := by
  simp only [Kind.isAlone, Bool.and_eq_true, Bool.not_eq_true', bne_iff_ne, ne_eq,
    Option.isNone_iff_eq_none] at alone
  obtain ⟨⟨noTemplate, noChevron⟩, opensNone⟩ := alone
  have unfolded : foldOperand inner fuel operand first = pure first := by
    rcases foldOperand_cases inner fuel operand first with ⟨isTemplate, -⟩ | ⟨isChevron, -⟩ | ⟨-, same⟩
    · rw [noTemplate] at isTemplate
      cases isTemplate
    · exact absurd isChevron noChevron
    · exact same
  have opensPlain := (plainKind_opens? before first.kind).trans opensNone
  simp only [foldUnit, unfolded, pure_bind, foldGroup, opensPlain, trace]

def Reader.pastAlone (reader : Reader) (found : Token.Lexed) : Reader :=
  let kind := plainKind reader.previous found.lexeme.kind
  { reader.past found with operand := operandAfter reader.previous kind, previous := kind }

theorem unitOver_alone (inner : Scan Token) (fuel : Nat) {reader : Reader} {found : Token.Lexed}
    (lexed : Token.lex reader.mode reader.rest = .ok found)
    (alone : found.lexeme.kind.isAlone = true) :
    unitOver inner fuel reader =
      .ok ({ reader.tokenOf found with kind := plainKind reader.previous found.lexeme.kind },
        reader.pastAlone found) := by
  have first := token_of_lex lexed
  have isAlone : (reader.tokenOf found).kind.isAlone = true := alone
  rw [unitOver_run]
  refine (bind_of_ok first _).trans ?_
  rw [foldUnit_alone _ _ _ _ isAlone]
  rfl

theorem unit_alone (fuel : Nat) {reader : Reader} {found : Token.Lexed}
    (lexed : Token.lex reader.mode reader.rest = .ok found)
    (alone : found.lexeme.kind.isAlone = true) :
    unit (fuel + 1) reader =
      .ok ({ reader.tokenOf found with kind := plainKind reader.previous found.lexeme.kind },
        reader.pastAlone found) :=
  unitOver_alone (unit fuel) fuel lexed alone

/-- The parts of reading a unit: its first token, the operand that this starts, and the group. -/
theorem unit_run {depth : Nat} {reader after : Reader} {token : Token}
    (read : unit depth reader = .ok (token, after)) :
    ∃ inner first middle whole behind last, Scan.token reader.mode reader = .ok (first, middle) ∧
      foldOperand (unit inner) inner reader.operand first middle = .ok (whole, behind) ∧
      foldGroup (unit inner) inner { whole with kind := plainKind reader.previous whole.kind } behind =
        .ok (token, last) ∧
      after = { last with operand := after.operand, previous := after.previous } := by
  cases depth with
  | zero => cases read
  | succ inner =>
      rw [unit, unitOver_run] at read
      obtain ⟨first, middle, tokenRun, read⟩ := bind_eq_ok read
      obtain ⟨whole, behind, operandRun, read⟩ := bind_eq_ok read
      obtain ⟨grouped, last, groupRun, read⟩ := bind_eq_ok read
      obtain ⟨⟨⟩, noted, follows, read⟩ := bind_eq_ok read
      cases follows
      cases read
      exact ⟨inner, first, middle, whole, behind, last, tokenRun, operandRun, groupRun, rfl⟩

theorem foldGroup_kind {inner : Scan Token} {fuel : Nat} {token whole : Token} {reader after : Reader}
    (run : foldGroup inner fuel token reader = .ok (whole, after)) : whole.kind = token.kind := by
  unfold foldGroup at run
  cases opens : token.kind.opens? with
  | none =>
      rw [opens] at run
      cases run
      rfl
  | some bracket =>
      rw [opens] at run
      obtain ⟨⟨⟩, noted, -, run⟩ := bind_eq_ok run
      obtain ⟨stop, last, -, run⟩ := bind_eq_ok run
      cases run
      rfl

theorem plainKind_eq_punctuator {before kind : Kind} {p : Punctuator}
    (same : plainKind before kind = .punctuator p) : kind = .punctuator p := by
  rcases plainKind_cases before kind with plain | ⟨-, isName⟩
  · exact plain.symm.trans same
  · rw [isName] at same
    cases same

/-- A token of which no template and no element is made stays as it is. -/
theorem foldOperand_same {inner : Scan Token} {fuel : Nat} {operand : Bool} {first whole : Token}
    {reader after : Reader}
    (run : foldOperand inner fuel operand first reader = .ok (whole, after))
    (noTemplate : whole.kind ≠ .literal .template) (noElement : whole.kind ≠ .jsx) :
    whole = first ∧ after = reader := by
  rcases foldOperand_cases inner fuel operand first with
    ⟨-, ending, -, folds⟩ | ⟨-, folds⟩ | ⟨-, folds⟩
  · rw [folds] at run
    rw [template_eq run] at noTemplate
    exact absurd rfl noTemplate
  · rw [folds] at run
    rw [element_eq run] at noElement
    exact absurd rfl noElement
  · rw [folds] at run
    cases run
    exact ⟨rfl, rfl⟩

/-- What opens a group is no template and no element. -/
theorem foldOperand_opening {first : Token} {bracket : Bracket}
    (opens : first.kind.opens? = some bracket) (inner : Scan Token) (fuel : Nat) (operand : Bool) :
    foldOperand inner fuel operand first = pure first := by
  rcases foldOperand_cases inner fuel operand first with
    ⟨-, ending, isLiteral, -⟩ | ⟨isChevron, -⟩ | ⟨-, folds⟩
  · rw [isLiteral] at opens
    cases opens
  · rw [isChevron] at opens
    cases opens
  · exact folds

theorem foldGroup_opening {first : Token} {bracket : Bracket}
    (opens : first.kind.opens? = some bracket) (inner : Scan Token) (fuel : Nat) :
    foldGroup inner fuel first = follow true first.kind >>= fun _ =>
      group inner bracket fuel >>= fun stop => pure (first.upTo stop) := by
  simp only [foldGroup, opens]

/-- A unit that is a punctuator is the token that was read. -/
theorem unit_token {depth : Nat} {reader after : Reader} {token : Token} {p : Punctuator}
    (read : unit depth reader = .ok (token, after)) (isKind : token.kind = .punctuator p)
    (noGroup : p.opens? = none) :
    ∃ middle, Scan.token reader.mode reader = .ok (token, middle) ∧
      after = { middle with operand := after.operand, previous := after.previous } := by
  obtain ⟨inner, first, middle, whole, behind, last, tokenRun, operandRun, groupRun, isAfter⟩ :=
    unit_run read
  have kind := plainKind_eq_punctuator ((foldGroup_kind groupRun).symm.trans isKind)
  obtain ⟨rfl, rfl⟩ := foldOperand_same operandRun (by rw [kind]; nofun) (by rw [kind]; nofun)
  have plain : plainKind reader.previous whole.kind = whole.kind := by rw [kind]; rfl
  have closed : whole.kind.opens? = none := by rw [kind]; exact noGroup
  simp only [plain, foldGroup, closed] at groupRun
  cases groupRun
  exact ⟨_, tokenRun, isAfter⟩

/-! ## Last characters -/

/-- A reader gets to another past a closing mark other than a semicolon. -/
def Reader.Delimits (reader after : Reader) : Prop :=
  ∃ front mark, mark ≠ ';' ∧ reader.Passes (front ++ [mark]) after

theorem Reader.Delimits.behind {first reader after : Reader} (delimits : reader.Delimits after)
    (leads : first.Leads reader) : first.Delimits after := by
  obtain ⟨passed, passes⟩ := leads
  obtain ⟨front, mark, other, more⟩ := delimits
  refine ⟨passed ++ front, mark, other, ?_⟩
  rw [List.append_assoc]
  exact passes.trans more

theorem Reader.Delimits.no_semicolon {reader after : Reader} (delimits : reader.Delimits after)
    {front : Text} : ¬ reader.Passes (front ++ [';']) after := by
  intro passes
  obtain ⟨others, mark, other, same⟩ := delimits
  obtain ⟨-, last⟩ := List.append_inj' (same.unique passes) rfl
  exact other (List.cons.inj last).1

theorem Scan.token_delimits {mode : Token.Mode} {reader after : Reader} {token : Token}
    {p : Punctuator} (run : Scan.token mode reader = .ok (token, after))
    (isKind : token.kind = .punctuator p) (other : p ≠ .semicolon) : reader.Delimits after := by
  obtain ⟨body, lies⟩ := token_at run
  have marks : ∀ q ∈ Punctuator.longestFirst, q ≠ .semicolon →
      ∃ mark, q.spelling.getLast? = some mark ∧ mark ≠ ';' := by
    have all : (Punctuator.longestFirst.all fun q =>
        q == .semicolon || (q.spelling.getLast?.any (· != ';'))) = true := by decide
    intro q member noSemicolon
    have ends := List.all_eq_true.mp all q member
    simpa [noSemicolon, Option.any_eq_true] using ends
  obtain ⟨mark, last, noSemicolon⟩ := marks p (Token.mem_longestFirst p) other
  obtain ⟨front, spelling⟩ := List.getLast?_eq_some_iff.mp last
  refine ⟨reader.gap ++ front, mark, noSemicolon, ?_⟩
  rw [List.append_assoc, ← spelling, ← lies.punctuator p isKind]
  exact lies.passes

theorem tagToken_leads {reader after : Reader} {token : Token}
    (run : tagToken reader = .ok (token, after)) : reader.Leads after := by
  have follows : Seam.atEnd.Follows tagToken tagToken _ := .tagToken
  exact follows.leads run

/-- A `>` that was read last is a closing mark. -/
def ClosesTag (reader : Reader) (token : Token) (after : Reader) : Prop :=
  token.kind = .punctuator .chevronRight → reader.Delimits after

theorem tagToken_closesTag {reader after : Reader} {token : Token}
    (run : tagToken reader = .ok (token, after)) : ClosesTag reader token after :=
  fun isKind => token_delimits (tagToken_eq_ok run) isKind nofun

theorem elementName_closesTag {fuel : Nat} {token : Token} {reader after : Reader}
    {named : Text × Token} (run : elementName fuel token reader = .ok (named, after)) :
    ClosesTag reader named.2 after := by
  induction fuel generalizing token reader named after with
  | zero => cases run
  | succ fuel ih =>
      simp only [elementName] at run
      split at run
      · obtain ⟨next, middle, read, rest⟩ := bind_eq_ok run
        split at rest
        · obtain ⟨part, behind, partRead, rest⟩ := bind_eq_ok rest
          obtain ⟨more, last, inner, done⟩ := bind_eq_ok rest
          cases done
          intro isKind
          exact (ih inner isKind).behind ((tagToken_leads read).trans (tagToken_leads partRead))
        · cases rest
          exact tagToken_closesTag read
      · cases run

theorem closingTag_delimits {name : Text} {fuel : Nat} {opening : Token} {reader after : Reader}
    {stop : Span} (run : closingTag name fuel opening reader = .ok (stop, after)) :
    reader.Delimits after := by
  obtain ⟨first, middle, read, run⟩ := bind_eq_ok run
  obtain ⟨named, behind, nameRun, run⟩ := bind_eq_ok run
  obtain ⟨⟨⟩, checked, closes, run⟩ := bind_eq_ok run
  have ends : ClosesTag reader named.2 behind := by
    simp only [tagName] at nameRun
    split at nameRun
    · cases nameRun
      exact tagToken_closesTag read
    · exact fun isKind => (elementName_closesTag nameRun isKind).behind (tagToken_leads read)
  simp only [require] at closes
  split at closes
  · rename_i isClose
    cases closes
    split at run
    · cases run
      exact ends isClose
    · cases run
  · cases closes

section Element

variable {substitution : Scan Unit} {element : Token → Scan Token}
  (substitutions : ∀ {reader after}, substitution reader = .ok ((), after) → reader.Leads after)
  (elements : ∀ {opening token reader after},
    element opening reader = .ok (token, after) → reader.Leads after)

include substitutions elements

theorem attributes_delimits {fuel : Nat} {token : Token} {reader after : Reader} {stop : Span}
    (run : attributes substitution element fuel token reader = .ok (.selfClosed stop, after)) :
    reader.Delimits after := by
  induction fuel generalizing token reader with
  | zero => cases run
  | succ fuel ih =>
      simp only [attributes] at run
      split at run
      · cases run
      split at run
      · obtain ⟨close, middle, read, run⟩ := bind_eq_ok run
        obtain ⟨⟨⟩, checked, closes, run⟩ := bind_eq_ok run
        simp only [require] at closes
        split at closes
        · rename_i isClose
          cases closes
          cases run
          exact tagToken_closesTag read isClose
        · cases closes
      split at run
      · obtain ⟨⟨⟩, middle, inner, run⟩ := bind_eq_ok run
        obtain ⟨next, behind, read, run⟩ := bind_eq_ok run
        exact (ih run).behind ((substitutions inner).trans (tagToken_leads read))
      split at run
      · obtain ⟨nested, middle, inner, run⟩ := bind_eq_ok run
        obtain ⟨next, behind, read, run⟩ := bind_eq_ok run
        exact (ih run).behind ((elements inner).trans (tagToken_leads read))
      split at run
      · obtain ⟨next, behind, read, run⟩ := bind_eq_ok run
        exact (ih run).behind (tagToken_leads read)
      · cases run

theorem children_delimits {name : Text} {opening fuel : Nat} {reader after : Reader} {stop : Span}
    (run : children substitution element name opening fuel reader = .ok (stop, after)) :
    reader.Delimits after := by
  induction fuel generalizing reader with
  | zero => cases run
  | succ fuel ih =>
      obtain ⟨⟨⟩, first, between, run⟩ := bind_eq_ok run
      obtain ⟨child, middle, read, run⟩ := bind_eq_ok run
      have toMiddle := (elementText_leads between).trans (tagToken_leads read)
      split at run
      · obtain ⟨⟨⟩, behind, inner, run⟩ := bind_eq_ok run
        exact (ih run).behind (toMiddle.trans (substitutions inner))
      split at run
      · exact (closingTag_delimits run).behind toMiddle
      split at run
      · obtain ⟨nested, behind, inner, run⟩ := bind_eq_ok run
        exact (ih run).behind (toMiddle.trans (elements inner))
      · cases run

end Element

theorem element_delimits {substitution : Scan Unit}
    (substitutions : Seam.atEnd.Follows substitution substitution id) {fuel : Nat}
    {opening token : Token} {reader after : Reader}
    (run : element substitution fuel opening reader = .ok (token, after)) : reader.Delimits after := by
  cases fuel with
  | zero => cases run
  | succ fuel =>
      have elements {opening token : Token} {reader after : Reader}
          (inner : element substitution fuel opening reader = .ok (token, after)) :
          reader.Leads after := by
        have follows : Seam.atEnd.Follows (element substitution fuel opening) _ _ :=
          .element substitutions (Nat.le_refl fuel) opening
        exact follows.leads inner
      obtain ⟨first, middle, read, run⟩ := bind_eq_ok run
      obtain ⟨named, behind, nameRun, run⟩ := bind_eq_ok run
      obtain ⟨stop, last, rest, run⟩ := bind_eq_ok run
      cases run
      obtain ⟨ending, inside, tag, rest⟩ := bind_eq_ok rest
      have names : Seam.atEnd.Follows (tagName (fuel + 1) first) _ _ :=
        .tagName (Nat.le_refl (fuel + 1)) first
      have toBehind := (tagToken_leads read).trans (names.leads nameRun)
      cases ending with
      | selfClosed close =>
          cases rest
          exact (attributes_delimits substitutions.leads elements tag).behind toBehind
      | opened =>
          have tags : Seam.atEnd.Follows
              (attributes substitution (element substitution fuel) (fuel + 1) named.2) _ _ :=
            .attributes substitutions
              (fun token => .element substitutions (Nat.le_refl fuel) token)
              (Nat.le_refl (fuel + 1)) named.2
          exact (children_delimits substitutions.leads elements rest).behind
            (toBehind.trans (tags.leads tag))

theorem templateRest_delimits {substitution : Scan Unit}
    (substitutions : Seam.atEnd.Follows substitution substitution id) {opening fuel : Nat}
    {reader after : Reader}
    (run : templateRest substitution opening fuel .templateHead reader = .ok ((), after)) :
    reader.Delimits after := by
  induction fuel generalizing reader with
  | zero => cases run
  | succ fuel ih =>
      simp only [templateRest, if_true] at run
      obtain ⟨⟨⟩, middle, inner, run⟩ := bind_eq_ok run
      obtain ⟨next, behind, read, run⟩ := bind_eq_ok run
      have parts : Seam.atEnd.Follows (templatePart opening) _ _ := .templatePart opening
      have toBehind := (substitutions.leads inner).trans (parts.leads read)
      cases found : Token.templatePart middle.rest with
      | error fault => simp [templatePart, found] at read
      | ok part =>
          obtain ⟨chars, ending, closing, rest⟩ := part
          simp only [templatePart, found, Except.ok.injEq, Prod.mk.injEq] at read
          obtain ⟨rfl, rfl⟩ := read
          obtain ⟨split, -, marks, -⟩ := Token.templatePart_extent found
          rcases marks with ⟨rfl, rfl⟩ | rfl
          · have last : middle.Delimits _ :=
              ⟨chars, '\x60', by decide, Reader.passes_advance split⟩
            cases fuel with
            | zero => cases run
            | succ fuel =>
                cases run
                exact last.behind (substitutions.leads inner)
          · exact (ih run).behind toBehind

theorem group_delimits {inner : Nat} {bracket : Bracket} {fuel : Nat} {reader after : Reader}
    {stop : Span} (run : group (unit inner) bracket fuel reader = .ok (stop, after)) :
    reader.Delimits after := by
  induction fuel generalizing reader with
  | zero => cases run
  | succ fuel ih =>
      obtain ⟨token, middle, read, run⟩ := bind_eq_ok run
      simp only [closeOrGoOn] at run
      split at run
      · rename_i isClose
        cases run
        obtain ⟨last, tokenRun, isAfter⟩ := unit_token read isClose (by cases bracket <;> rfl)
        obtain ⟨front, mark, other, passes⟩ :=
          token_delimits tokenRun isClose (by cases bracket <;> decide)
        rw [isAfter]
        exact ⟨front, mark, other, passes.rest, passes.position⟩
      split at run
      · cases run
      split at run
      · cases run
      · exact (ih run).behind (unit_leads read)

/-! ## Semicolons -/

theorem token_of_last_semicolon {mode : Token.Mode} {reader after : Reader} {token : Token}
    {front : Text} (run : Scan.token mode reader = .ok (token, after))
    (alone : token.kind.isTemplate = false)
    (passes : reader.Passes (reader.gap ++ (front ++ [';'])) after) :
    token.kind = .punctuator .semicolon := by
  obtain ⟨found, lexed, rfl, rfl⟩ := token_eq_ok run
  have whole : found.lexeme.whole = front ++ [';'] := by
    have same := (Reader.passes_past lexed).unique passes
    rw [(Token.lex_gap lexed).1] at same
    exact List.append_cancel_left same
  obtain ⟨gap, newline, lexeme⟩ := found
  rcases Token.lex_form lexed with rfl | form
  · cases front <;> cases whole
  cases form with
  | @run kind chars rest isRun noSeal =>
      have ends : chars = front ++ [';'] := (Token.Lexeme.whole_plain kind chars rest).symm.trans whole
      exact absurd ⟨front, ';', ends, by decide⟩ noSeal
  | @string quote content rest isQuote clean =>
      have ends : quote :: content ++ [quote] = front ++ [';'] :=
        (Token.Lexeme.whole_plain (.literal .string) _ rest).symm.trans whole
      obtain ⟨-, last⟩ := List.append_inj' ends rfl
      obtain rfl : quote = ';' := (List.cons.inj last).1
      exact absurd isQuote (by decide)
  | @template ending chars closing rest marks =>
      rcases marks with ⟨rfl, -⟩ | rfl <;> cases alone
  | @punctuator p rest =>
      by_cases semicolon : p = .semicolon
      · rw [semicolon]
        rfl
      · rw [← List.append_assoc] at passes
        exact absurd passes (token_delimits run rfl semicolon).no_semicolon

theorem token_template_delimits {mode : Token.Mode} {reader after : Reader} {token : Token}
    (run : Scan.token mode reader = .ok (token, after)) (isKind : token.kind = .literal .template) :
    reader.Delimits after := by
  obtain ⟨found, lexed, rfl, rfl⟩ := token_eq_ok run
  have passes := Reader.passes_past lexed
  obtain ⟨gap, newline, lexeme⟩ := found
  rcases Token.lex_form lexed with rfl | form
  · cases isKind
  cases form with
  | run isRun =>
      obtain rfl : _ = Kind.literal .template := isKind
      cases isRun
  | string => cases isKind
  | @template ending chars closing rest marks =>
      obtain ⟨rfl, rfl⟩ := marks.resolve_right fun isHead => by
        rw [isHead] at isKind
        cases isKind
      refine ⟨gap ++ ('\x60' :: chars), '\x60', by decide, ?_⟩
      rw [List.append_assoc]
      exact passes
  | punctuator => cases isKind

theorem foldOperand_delimits {mode : Token.Mode} {inner : Nat} {operand : Bool}
    {reader middle behind : Reader} {first whole : Token}
    (tokenRun : Scan.token mode reader = .ok (first, middle))
    (run : foldOperand (unit inner) inner operand first middle = .ok (whole, behind)) :
    (first.kind.isTemplate = false ∧ whole = first ∧ behind = middle) ∨ reader.Delimits behind := by
  have substitutions : Seam.atEnd.Follows (substitution (unit inner) inner) _ id :=
    .substitution (.unit (Nat.le_refl inner)) (Nat.le_refl inner)
  have toMiddle : reader.Leads middle := by
    obtain ⟨body, lies⟩ := token_at tokenRun
    exact ⟨_, lies.passes⟩
  -- A template ends with its backtick and an element with a `>`.
  rcases foldOperand_cases (unit inner) inner operand first with
    ⟨isTemplate, ending, isKind, folds⟩ | ⟨-, folds⟩ | ⟨noTemplate, folds⟩
  · rw [folds] at run
    obtain ⟨⟨⟩, last, rest, run⟩ := bind_eq_ok run
    cases run
    by_cases goesOn : ending = .templateHead
    · rw [goesOn] at rest
      exact .inr ((templateRest_delimits substitutions rest).behind toMiddle)
    · cases inner with
      | zero => cases rest
      | succ inner =>
          rw [templateRest, if_neg goesOn] at rest
          cases rest
          have isLast : first.kind = .literal .template := by
            rw [isKind] at isTemplate ⊢
            cases ending <;> first | rfl | exact absurd rfl goesOn | cases isTemplate
          exact .inr (token_template_delimits tokenRun isLast)
  · rw [folds] at run
    exact .inr ((element_delimits substitutions run).behind toMiddle)
  · rw [folds] at run
    cases run
    exact .inl ⟨noTemplate, rfl, rfl⟩

/-- A unit that ends with a semicolon is one. -/
theorem unit_of_last_semicolon {depth : Nat} {reader after : Reader} {token : Token} {front : Text}
    (read : unit depth reader = .ok (token, after))
    (passes : reader.Passes (reader.gap ++ (front ++ [';'])) after) :
    token.kind = .punctuator .semicolon := by
  obtain ⟨inner, first, middle, whole, behind, last, tokenRun, operandRun, groupRun, isAfter⟩ :=
    unit_run read
  rw [isAfter] at passes
  have ends : reader.Passes (reader.gap ++ (front ++ [';'])) last := ⟨passes.rest, passes.position⟩
  have isEnd : reader.Passes (reader.gap ++ front ++ [';']) last := by rwa [List.append_assoc]
  unfold foldGroup at groupRun
  cases opens : (plainKind reader.previous whole.kind).opens? with
  | some bracket =>
      rw [opens] at groupRun
      obtain ⟨⟨⟩, noted, follows, groupRun⟩ := bind_eq_ok groupRun
      cases follows
      obtain ⟨stop, behindGroup, grouped, groupRun⟩ := bind_eq_ok groupRun
      cases groupRun
      have toBehind : reader.Leads behind := by
        rcases foldOperand_delimits tokenRun operandRun with ⟨-, -, rfl⟩ | ⟨front, mark, -, passes⟩
        · obtain ⟨body, lies⟩ := token_at tokenRun
          exact ⟨_, lies.passes⟩
        · exact ⟨_, passes⟩
      obtain ⟨more, mark, other, passed⟩ := group_delimits grouped
      have inGroup : behind.Delimits last := ⟨more, mark, other, passed.rest, passed.position⟩
      exact absurd isEnd (inGroup.behind toBehind).no_semicolon
  | none =>
      rw [opens] at groupRun
      cases groupRun
      rcases foldOperand_delimits tokenRun operandRun with ⟨noTemplate, rfl, rfl⟩ | delimits
      · have kind := token_of_last_semicolon tokenRun noTemplate ends
        show plainKind reader.previous whole.kind = _
        rw [kind]
        rfl
      · exact absurd isEnd delimits.no_semicolon

theorem unit_semicolon {depth otherDepth : Nat} (deeper : depth ≤ otherDepth) {reader after : Reader}
    {token : Token} (read : unit depth reader = .ok (token, after))
    (isKind : token.kind = .punctuator .semicolon) :
    reader.rest = reader.gap ++ ';' :: after.rest ∧ ∀ rest shift,
      unit otherDepth ⟨reader.gap ++ ';' :: rest, reader.position + shift, reader.operand,
          reader.previous⟩ =
        .ok (token.shift shift, ⟨rest, after.position + shift, after.operand, after.previous⟩) := by
  obtain ⟨body, lies⟩ := unit_at read
  have operand := lies.operand
  have previous := lies.previous
  obtain ⟨middle, tokenRun, isAfter⟩ := unit_token read isKind rfl
  obtain ⟨otherDepth, rfl⟩ := exists_succ_of_unit deeper read
  obtain ⟨found, lexed, rfl, rfl⟩ := token_eq_ok tokenRun
  have gap : found.gap = reader.gap := (Token.lex_gap lexed).1
  have whole : found.lexeme.whole = [';'] := by
    obtain ⟨body, lies⟩ := token_at tokenRun
    have same := (Reader.passes_past lexed).unique lies.passes
    rw [gap, lies.punctuator _ isKind] at same
    exact List.append_cancel_left same
  have rest : after.rest = found.lexeme.rest := by rw [isAfter]; rfl
  refine ⟨?_, fun other shift => ?_⟩
  · rw [rest, ← Token.lex_append lexed, whole, gap, List.append_assoc]
    rfl
  · have nonempty : found.lexeme.whole ≠ [] := by simp [whole]
    have fits : Text.Alike found.lexeme.rest other ∨ Text.Sealed found.lexeme.whole :=
      .inr (by rw [whole]; exact ⟨[], ';', rfl, rfl⟩)
    have again := Token.lex_congr lexed nonempty fits
    rw [whole, gap, List.append_assoc] at again
    let twin : Reader := ⟨reader.gap ++ ';' :: other, reader.position + shift, reader.operand,
      reader.previous⟩
    have alone : (found.before other).lexeme.kind = .punctuator .semicolon := isKind
    have other_ : unit (otherDepth + 1) twin = _ := unit_alone otherDepth again (by rw [alone]; rfl)
    have position : after.position = _ := congrArg Reader.position isAfter
    have kind : found.lexeme.kind = .punctuator .semicolon := isKind
    rw [isKind] at operand previous
    refine other_.trans ?_
    simp only [operand, previous, position, Reader.pastAlone, Reader.tokenOf, Reader.past,
      Reader.advance, Token.Lexed.before, Token.shift, Span.shift, kind, plainKind, Except.ok.injEq,
      Prod.mk.injEq, Token.mk.injEq, Span.mk.injEq, Reader.mk.injEq, true_and, and_true]
    have moved : twin.position = reader.position + shift := rfl
    exact ⟨⟨by omega, by omega⟩, by omega, rfl, rfl⟩

end Relink
