import Relink.Proofs.Scan.Extent

/-!
# Spaces before a unit

A space in front of a text belongs to the gap before the first unit. It moves the unit, and a line
feed puts it on a new line; nothing else changes, also where no unit can be read.
-/

set_option autoImplicit false

namespace Relink

namespace Trivia

theorem isSpace_of_isFaultSpace {c : Char} (space : isFaultSpace c = true) : isSpace c = true := by
  simp only [isFaultSpace, Bool.or_eq_true] at space
  rcases space with (((tab | newline) | feed) | turn) | blank <;> simp_all [isSpace]

theorem beforeFault_space {c : Char} (space : isFaultSpace c = true) (text : Text) :
    beforeFault (c :: text) = (c :: (beforeFault text).1, (beforeFault text).2) := by
  rw [beforeFault]
  · simp [space]
  · rintro rest rfl
    exact absurd space (by decide)
  · rintro rest rfl
    exact absurd space (by decide)

end Trivia

def Token.behindSpace (c : Char) (token : Token) : Token :=
  { token with onNewLine := c == '\n' || token.onNewLine }

namespace Scan

theorem map_run {α β : Type} (f : α → β) (action : Scan α) (reader : Reader) :
    (f <$> action) reader = (action reader).map fun parts => (f parts.1, parts.2) := by
  cases run : action reader with
  | error halt => simp [Functor.map, StateT.map, bind, Except.bind, run, Except.map]
  | ok parts => simp [Functor.map, StateT.map, bind, Except.bind, pure, Except.pure, run, Except.map]

theorem token_space {c : Char} (space : Trivia.isFaultSpace c = true) (mode : Token.Mode)
    {reader : Reader} {rest : Text} (split : reader.rest = c :: rest) :
    token mode reader = (Token.behindSpace c <$> token mode) (reader.advance [c] rest) := by
  rw [map_run]
  have lexed := Token.lex_space (Trivia.isSpace_of_isFaultSpace space) mode rest
  simp only [token, Reader.token, split, lexed, Reader.advance]
  cases Token.lex mode rest with
  | error fault =>
      simp [Except.map, Reader.unreadable, split, Trivia.beforeFault_space space, Reader.finish,
        Nat.add_assoc]
  | ok found =>
      simp [Except.map, Reader.tokenOf, Reader.past, Reader.advance, Token.behindSpace,
        Nat.add_assoc]

section Fold

variable (c : Char) (inner : Scan Token) (fuel : Nat)

theorem template_behindSpace (substitution : Scan Unit) (token : Token) (ending : Literal) :
    template substitution fuel (token.behindSpace c) ending =
      Token.behindSpace c <$> template substitution fuel token ending := by
  simp only [template, map_bind, map_pure]
  rfl

theorem element_behindSpace (substitution : Scan Unit) (token : Token) :
    element substitution fuel (token.behindSpace c) =
      Token.behindSpace c <$> element substitution fuel token := by
  cases fuel with
  | zero => rfl
  | succ fuel =>
      simp only [element, map_bind, map_pure]
      rfl

theorem foldOperand_behindSpace (operand : Bool) (token : Token) :
    foldOperand inner fuel operand (token.behindSpace c) =
      Token.behindSpace c <$> foldOperand inner fuel operand token := by
  have kind : (token.behindSpace c).kind = token.kind := rfl
  unfold foldOperand
  rw [kind]
  split
  · exact template_behindSpace ..
  · exact template_behindSpace ..
  · split
    · exact element_behindSpace ..
    · rfl
  · rfl

theorem foldGroup_behindSpace (token : Token) :
    foldGroup inner fuel (token.behindSpace c) =
      Token.behindSpace c <$> foldGroup inner fuel token := by
  have kind : (token.behindSpace c).kind = token.kind := rfl
  unfold foldGroup
  rw [kind]
  split
  · simp only [map_bind, map_pure]
    rfl
  · rfl

/-- What is done with the first token of a unit. -/
def foldUnit (before : Kind) (operand : Bool) (first : Token) : Scan Token := do
  let whole ← foldOperand inner fuel operand first
  let kind := plainKind before whole.kind
  let folded ← foldGroup inner fuel { whole with kind := kind }
  follow (operandAfter before kind) (trace kind)
  pure folded

theorem foldUnit_behindSpace (before : Kind) (operand : Bool) (token : Token) :
    foldUnit inner fuel before operand (token.behindSpace c) =
      Token.behindSpace c <$> foldUnit inner fuel before operand token := by
  simp only [foldUnit, foldOperand_behindSpace, map_bind, bind_map_left, map_pure]
  congr 1
  funext whole
  have kind : (whole.behindSpace c).kind = whole.kind := rfl
  have grouped : foldGroup inner fuel
        { whole.behindSpace c with kind := plainKind before whole.kind } =
      Token.behindSpace c <$> foldGroup inner fuel
        { whole with kind := plainKind before whole.kind } :=
    foldGroup_behindSpace c inner fuel { whole with kind := plainKind before whole.kind }
  rw [kind, grouped, bind_map_left]

end Fold

end Scan

/-- The mode in which a reader reads the first token of a unit. -/
def Reader.mode (reader : Reader) : Token.Mode := if reader.operand then .operand else .operator

namespace Scan

theorem unitOver_run (inner : Scan Token) (fuel : Nat) (reader : Reader) :
    unitOver inner fuel reader =
      (token reader.mode >>= foldUnit inner fuel reader.previous reader.operand) reader := rfl

/-- A unit of which the first token is read behind a space is read as it is without it. -/
theorem unit_behindSpace {c : Char} (fuel : Nat) {reader other : Reader}
    (operand : other.operand = reader.operand) (previous : other.previous = reader.previous)
    (first : token reader.mode reader = (Token.behindSpace c <$> token reader.mode) other) :
    unit fuel reader = (Token.behindSpace c <$> unit fuel) other := by
  cases fuel with
  | zero => rfl
  | succ fuel =>
      have mode : other.mode = reader.mode := by rw [Reader.mode, operand, Reader.mode]
      rw [map_run]
      simp only [unit, unitOver_run, operand, previous, mode]
      rw [← map_run, map_bind]
      calc (token reader.mode >>= foldUnit (unit fuel) fuel reader.previous reader.operand) reader
          = ((Token.behindSpace c <$> token reader.mode) >>=
              foldUnit (unit fuel) fuel reader.previous reader.operand) other :=
            bind_run_congr first _
        _ = (token reader.mode >>= fun token => Token.behindSpace c <$>
              foldUnit (unit fuel) fuel reader.previous reader.operand token) other := by
            simp only [bind_map_left, foldUnit_behindSpace]

/-- A unit is read behind a space as it is read without it. -/
theorem unit_space {c : Char} (space : Trivia.isFaultSpace c = true) (fuel : Nat)
    {reader : Reader} {rest : Text} (split : reader.rest = c :: rest) :
    unit fuel reader = (Token.behindSpace c <$> unit fuel) (reader.advance [c] rest) :=
  unit_behindSpace fuel rfl rfl (token_space space reader.mode split)

end Scan

end Relink
