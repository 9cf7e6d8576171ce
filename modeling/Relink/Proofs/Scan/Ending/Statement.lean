import Relink.Proofs.Scan.Ending.Compound
import Relink.Proofs.Scan.Statement

/-!
# Endings of statements

Module requests and, whatever is nested in them, all other statements.
-/

set_option autoImplicit false

namespace Relink

open Scan

variable {depth otherDepth : Nat} {before : List Token}

/-! ## Scanned statements -/

theorem Ends.scanned {reader : Reader} {ending : Scan Ending} {other : Nat → Scan Ending}
    (ends : Ends depth otherDepth before reader (resume (Scan.unit depth) ending)
      fun distance => resume (Scan.unit otherDepth) (other distance))
    (request : Option ModuleRequest) (start : Nat) :
    Ends depth otherDepth before reader
      (ending >>= fun ended => resumeScanned (Scan.unit depth) (pure (.of request start ended)))
      fun distance => other distance >>= fun ended => resumeScanned (Scan.unit otherDepth)
        (pure (.of (request.map (·.shift distance)) (start + distance) ended)) := by
  simp only [← resumeScanned_bind, resumeScanned_of]
  exact ends.map (fun stop => Statement.mk request ⟨start, stop⟩)
    (fun distance stop => .mk (request.map (·.shift distance)) ⟨start + distance, stop⟩)
    (fun _ => rfl) fun _ _ => rfl

theorem EndsBehind.scanned {reader middle : Reader} {token : Token} {ending : Scan Ending}
    {other : Nat → Scan Ending}
    (ends : EndsBehind depth otherDepth before reader token middle (resume (unit depth) ending)
      fun distance => resume (unit otherDepth) (other distance))
    (request : Option ModuleRequest) (start : Nat) :
    EndsBehind depth otherDepth before reader token middle
      (ending >>= fun ended => resumeScanned (unit depth) (pure (.of request start ended)))
      fun distance => other distance >>= fun ended => resumeScanned (unit otherDepth)
        (pure (.of (request.map (·.shift distance)) (start + distance) ended)) := by
  simp only [← resumeScanned_bind, resumeScanned_of]
  exact ends.map (fun stop => Statement.mk request ⟨start, stop⟩)
    (fun distance stop => .mk (request.map (·.shift distance)) ⟨start + distance, stop⟩)
    (fun _ => rfl) fun _ _ => rfl

/-! ## Requests -/

theorem requestEnding_ends (deeper : depth ≤ otherDepth) {reader : Reader} {stop : Nat}
    (here : stop = reader.position) (midway : Midway before reader) :
    Ends depth otherDepth before reader (resume (unit depth) (requestEnding (unit depth) stop))
      fun distance => resume (unit otherDepth)
        (requestEnding (unit otherDepth) (stop + distance)) := by
  simp only [requestEnding, resume_bind, resume_ite]
  refine .of_behind deeper fun next middle read => ?_
  by_cases introduces : introducesAttributes next = true
  · apply EndsBehind.beyond
    simp only [introducesAttributes_shift, introduces, if_true]
    refine .unit deeper fun attributes behind attributesRead => .require fun isBrace => ?_
    have stands := Token.before attributesRead
    exact .of_behind deeper fun after last readAfter =>
      terminator_ends readAfter stands.stop (stands.midway (by simp [isBrace]) (by simp [isBrace]))
  · simp only [introducesAttributes_shift, introduces, Bool.false_eq_true, if_false]
    exact terminator_ends read here midway

theorem request_ends (deeper : depth ≤ otherDepth) {reader : Reader} (start : Nat)
    (form : RequestForm) {specifier : Token} (stands : specifier.Before reader) :
    Ends depth otherDepth before reader
      (resumeScanned (unit depth) (request (unit depth) start form specifier))
      fun distance => resumeScanned (unit otherDepth)
        (request (unit otherDepth) (start + distance) form (specifier.shift distance)) := by
  simp only [request, resumeScanned_ite, resumeScanned_bind, resumeScanned_fail]
  simp only [Token.kind_shift]
  by_cases string : specifier.kind = .literal .string
  · simp only [string, if_true]
    have room := stands.room string
    have midway : Midway before reader := stands.midway (by simp [string]) (by simp [string])
    have inside (distance : Nat) : specifier.span.stop + distance - 1 =
        specifier.span.stop - 1 + distance := by omega
    have start' (distance : Nat) : specifier.span.start + distance + 1 =
        specifier.span.start + 1 + distance := by omega
    simp only [Token.start_shift, Token.stop_shift, inside, start']
    exact (requestEnding_ends deeper stands.stop midway).scanned
      (some ⟨form, ⟨specifier.span.start + 1, specifier.span.stop - 1⟩⟩) start
  · refine .of_failing (fun result run => ?_) _
    simp only [string, if_false] at run
    cases run

theorem requestNext_ends (deeper : depth ≤ otherDepth) (before : List Token) (reader : Reader)
    (start : Nat) (form : RequestForm) :
    Ends depth otherDepth before reader
      (resumeScanned (unit depth) (requestNext (unit depth) start form))
      fun distance => resumeScanned (unit otherDepth)
        (requestNext (unit otherDepth) (start + distance) form) := by
  simp only [requestNext, resumeScanned_bind]
  exact .unit deeper fun specifier middle read =>
    request_ends deeper start form (Token.before read)

/-! ## Imports -/

theorem importClause_units {fuel : Nat} {bound : Bool} {token : Token} {reader after : Reader}
    (stands : token.Before reader)
    (run : importClause (unit depth) fuel bound token reader = .ok ((), after)) :
    ∃ units, Units reader units after ∧ after.previous ≠ .punctuator .semicolon := by
  induction fuel generalizing bound token reader with
  | zero => cases run
  | succ fuel ih =>
      simp only [importClause] at run
      split at run
      · rename_i isFrom
        cases run
        refine ⟨[], .refl _, stands.previous_ne_semicolon fun semicolon => ?_⟩
        simp [Token.isWord, semicolon] at isFrom
      split at run
      · obtain ⟨next, middle, read, run⟩ := bind_eq_ok run
        obtain ⟨units, chain, unended⟩ := ih (Token.before read) run
        exact ⟨next :: units, .cons (.refl reader) read chain, unended⟩
      split at run
      · obtain ⟨next, middle, read, run⟩ := bind_eq_ok run
        obtain ⟨units, chain, unended⟩ := ih (Token.before read) run
        exact ⟨next :: units, .cons (.refl reader) read chain, unended⟩
      · cases run

theorem importStatement_ends (deeper : depth ≤ otherDepth) {fuel otherFuel : Nat}
    (enough : fuel ≤ otherFuel) {reader : Reader} (start : Nat) {next : Token}
    (stands : next.Before reader) :
    Ends depth otherDepth before reader
      (resumeScanned (unit depth) (importStatement (unit depth) fuel start next))
      fun distance => resumeScanned (unit otherDepth)
        (importStatement (unit otherDepth) otherFuel (start + distance) (next.shift distance)) := by
  simp only [importStatement, resumeScanned_ite, resumeScanned_bind]
  apply Ends.ite (fun _ => request_ends deeper start .sideEffect stands)
  intro _
  apply Ends.seq (fun _ => id) (fun seam => importClause_follows deeper enough false next)
  intro _ middle run
  obtain ⟨units, chain, unended⟩ := importClause_units stands run
  exact ⟨unended, units, chain, requestNext_ends deeper _ middle start .bindings⟩

/-! ## Exports -/

theorem exportFrom_ends (deeper : depth ≤ otherDepth) (before : List Token) (reader : Reader)
    (start : Nat) (token : Token) :
    Ends depth otherDepth before reader
      (resumeScanned (unit depth) (exportFrom (unit depth) start token))
      fun distance => resumeScanned (unit otherDepth)
        (exportFrom (unit otherDepth) (start + distance) (token.shift distance)) := by
  simp only [exportFrom, resumeScanned_ite, resumeScanned_fail]
  apply Ends.ite (fun _ => requestNext_ends deeper before reader start .reExport)
  intro _
  exact .of_failing (fun result run => by cases run) _

theorem exportAll_ends (deeper : depth ≤ otherDepth) (before : List Token) (reader : Reader)
    (start : Nat) :
    Ends depth otherDepth before reader
      (resumeScanned (unit depth) (exportAll (unit depth) start))
      fun distance => resumeScanned (unit otherDepth)
        (exportAll (unit otherDepth) (start + distance)) := by
  simp only [exportAll, resumeScanned_ite, resumeScanned_bind, resumeScanned_fail]
  refine .unit deeper fun token middle _ => .ite (fun _ => ?_) fun _ => ?_
  · refine .unit deeper fun name behind _ => .ite (fun _ => ?_) fun _ => ?_
    · exact .unit deeper fun after last _ => exportFrom_ends deeper _ last start after
    · exact .of_failing (fun result run => by cases run) _
  · exact exportFrom_ends deeper _ middle start token

theorem exportList_ends (deeper : depth ≤ otherDepth) {reader : Reader} (start : Nat) {stop : Nat}
    (here : stop = reader.position) (midway : Midway before reader) :
    Ends depth otherDepth before reader
      (resumeScanned (unit depth) (exportList (unit depth) start stop))
      fun distance => resumeScanned (unit otherDepth)
        (exportList (unit otherDepth) (start + distance) (stop + distance)) := by
  simp only [exportList, resumeScanned_ite, resumeScanned_bind]
  refine .of_behind deeper fun token middle read => ?_
  by_cases isFrom : token.isWord "from" = true
  · apply EndsBehind.beyond
    simp only [Token.isWord_shift, isFrom, if_true]
    exact requestNext_ends deeper _ middle start .reExport
  · simp only [Token.isWord_shift, isFrom, Bool.false_eq_true, if_false]
    exact (terminator_ends read here midway).scanned none start

/-! ## One statement -/

section Nested

variable (deeper : depth ≤ otherDepth) {fuel otherFuel : Nat} (enough : fuel ≤ otherFuel)
  {nested otherNested : Scan Ending}
  (closes : ∀ reader, Closes depth otherDepth False reader (resume (unit depth) nested)
    fun _ => resume (unit otherDepth) otherNested)
  (bodies : ∀ before reader, Ends depth otherDepth before reader (resume (unit depth) nested)
    fun _ => resume (unit otherDepth) otherNested)

include deeper enough bodies

theorem named_ends (before : List Token) {reader : Reader} {first : Token}
    (stop : first.span.stop = reader.position) (midway : Midway before reader) :
    Ends depth otherDepth before reader
      (resume (unit depth) (named (unit depth) fuel nested first))
      fun distance => resume (unit otherDepth)
        (named (unit otherDepth) otherFuel otherNested (first.shift distance)) := by
  simp only [named, resume_bind, resume_ite]
  simp only [Token.isWord_shift, Token.stop_shift, Token.kind_shift]
  refine .of_behind deeper fun next middle read => ?_
  have simply : EndsBehind depth otherDepth before reader next middle _ _ :=
    simple_endsBehind deeper enough read stop midway first.kind
  simp only [Token.isKeyword_shift, Token.onNewLine_shift, Token.isPunctuator_shift]
  by_cases isAsync : first.isWord "async" = true
  · simp only [isAsync, if_true]
    by_cases isFunction : (next.isKeyword .functionWord && !next.onNewLine) = true
    · apply EndsBehind.beyond
      simp only [isFunction, if_true]
      exact declaration_ends deeper enough _ middle
    · simp only [isFunction, Bool.false_eq_true, if_false]
      exact simply
  · simp only [isAsync, Bool.false_eq_true, if_false]
    by_cases isColon : next.isPunctuator .colon = true
    · apply EndsBehind.beyond
      simp only [isColon, if_true]
      exact bodies _ middle
    · simp only [isColon, Bool.false_eq_true, if_false]
      exact simply

include closes

theorem body_ends (before : List Token) {reader : Reader} {first : Token}
    (stands : first.Before reader) (noEnd : first.kind ≠ .eof) :
    Ends depth otherDepth before reader
      (resume (unit depth) (body (unit depth) fuel nested first))
      fun distance => resume (unit otherDepth)
        (body (unit otherDepth) otherFuel otherNested (first.shift distance)) := by
  simp only [body, Token.kind_shift, Token.stop_shift]
  split
  · simp only [resume_next]
    exact .next stands.stop (stands.previous_ne_eof noEnd)
  · rename_i isBrace
    simp only [resume_bind, resume_next]
    apply Ends.seq (fun _ => id) (fun seam => .expectOperand true)
    intro _ noted run
    cases run
    have notes := stands.notes_group (by rw [isBrace]; rfl) true
    have standsNoted := stands.noted notes
    refine ⟨standsNoted.previous_ne_semicolon (by simp [isBrace]), [], .nil notes, ?_⟩
    exact .next standsNoted.stop (standsNoted.previous_ne_eof noEnd)
  · exact .of_failing (fun result run => by cases run) _
  · exact .of_failing (fun result run => by cases run) _
  · exact .of_failing (fun result run => by cases run) _
  · exact declaration_ends deeper enough before reader
  · exact declaration_ends deeper enough before reader
  · exact conditional_ends bodies deeper closes before reader
  · exact forLoop_ends bodies deeper before reader
  · exact headed_ends bodies deeper before reader
  · exact headed_ends bodies deeper before reader
  · exact switch_ends deeper before reader
  · exact doLoop_ends bodies deeper closes before reader
  · exact guarded_ends deeper before reader
  · rename_i isName
    exact named_ends deeper enough bodies before stands.stop
      (stands.midway (by simp [isName]) noEnd)
  · rename_i noSemicolon _ _ _ _ _ _ _ _ _ _ _ _ _ _
    exact simpleAfter_ends deeper enough stands.stop (stands.midway noSemicolon noEnd)

theorem defaultValue_ends (before : List Token) {reader : Reader} {value : Token}
    (stands : value.Before reader)
    (unvalued : value.kind = .punctuator .semicolon → Unvalued before) :
    Ends depth otherDepth before reader
      (resume (unit depth) (defaultValue (unit depth) fuel nested value))
      fun distance => resume (unit otherDepth)
        (defaultValue (unit otherDepth) otherFuel otherNested (value.shift distance)) := by
  simp only [defaultValue, resume_ite]
  apply Ends.ite
  · intro declares
    refine body_ends deeper enough closes bodies before stands fun eof => ?_
    simp [Token.isKeyword, Token.isWord, eof] at declares
  intro _
  apply Ends.ite
  · intro _
    exact .of_failing (fun result run => by cases run) _
  · intro noEnd
    refine simpleAfter_ends deeper enough stands.stop ⟨fun semicolon => unvalued ?_, ?_⟩
    · rw [stands.previous] at semicolon
      exact eq_of_trace semicolon rfl
    · exact stands.previous_ne_eof noEnd

theorem exportStatement_ends (before : List Token) (reader : Reader) (start : Nat)
    (behindExport : before.getLast?.map (·.kind) = some (.keyword .exportWord)) :
    Ends depth otherDepth before reader
      (resumeScanned (unit depth) (exportStatement (unit depth) fuel nested start))
      fun distance => resumeScanned (unit otherDepth)
        (exportStatement (unit otherDepth) otherFuel otherNested (start + distance)) := by
  simp only [exportStatement, resumeScanned_bind, resumeScanned_ite]
  refine .unit deeper fun next middle read => ?_
  have stands := Token.before read
  refine .ite (fun _ => ?_) fun _ => .ite (fun isBrace => ?_) fun _ => .ite (fun isDefault => ?_)
    fun _ => .ite (fun _ => ?_) fun noEnd => ?_
  · exact exportAll_ends deeper _ middle start
  · have brace := (next.isPunctuator_iff .braceOpen).mp isBrace
    exact exportList_ends deeper start stands.stop
      (stands.midway (by simp [brace]) (by simp [brace]))
  · refine .unit deeper fun value behind readValue => ?_
    have standsValue := Token.before readValue
    refine (defaultValue_ends deeper enough closes bodies _ standsValue fun semicolon => ?_).scanned
      none start
    -- The units before a semicolon that is the value are `export` and `default`.
    obtain ⟨last, isLast, isExport⟩ := Option.map_eq_some_iff.mp behindExport
    obtain ⟨front, rfl⟩ := List.getLast?_eq_some_iff.mp isLast
    have default_ : next.kind = .keyword .defaultWord := by
      simpa [Token.isKeyword] using isDefault
    exact ⟨front.map (·.kind), by simp [isExport, default_, semicolon]⟩
  · exact .of_failing (fun result run => by cases run) _
  · exact (body_ends deeper enough closes bodies _ stands noEnd).scanned none start

theorem statementOver_ends (before : List Token) {reader : Reader} {first : Token}
    (stands : first.Before reader) (noEnd : first.kind ≠ .eof)
    (behindFirst : before.getLast?.map (·.kind) = some first.kind) :
    Ends depth otherDepth before reader
      (resumeScanned (unit depth) (statementOver (unit depth) fuel nested first))
      fun distance => resumeScanned (unit otherDepth)
        (statementOver (unit otherDepth) otherFuel otherNested (first.shift distance)) := by
  simp only [statementOver, resumeScanned_bind, resumeScanned_ite]
  refine .ite (fun _ => ?_) fun _ => .ite (fun isExport => ?_) fun _ => ?_
  · refine .unit deeper fun next middle read => ?_
    have standsNext := Token.before read
    refine .ite (fun goesOn => ?_) fun _ => ?_
    · have midway : Midway (before ++ [next]) middle := by
        apply standsNext.midway
        · intro semicolon
          simp [Token.isPunctuator, semicolon] at goesOn
        · intro eof
          simp [Token.isPunctuator, eof] at goesOn
      have ends : Ends depth otherDepth (before ++ [next]) middle _ _ :=
        simpleAfter_ends deeper enough standsNext.stop midway
      exact ends.scanned none first.span.start
    · exact importStatement_ends deeper enough first.span.start standsNext
  · have isKind : first.kind = .keyword .exportWord := by simpa [Token.isKeyword] using isExport
    rw [isKind] at behindFirst
    exact exportStatement_ends deeper enough closes bodies before reader first.span.start behindFirst
  · exact (body_ends deeper enough closes bodies before stands noEnd).scanned none first.span.start

end Nested

/-! ## Nested statements -/

theorem nestedIn_ends (deeper : depth ≤ otherDepth)
    {statement otherStatement : Token → Scan Scanned}
    (statements : ∀ (before : List Token) {reader first},
      first.Before reader → first.kind ≠ .eof → before.getLast?.map (·.kind) = some first.kind →
        Ends depth otherDepth before reader (resumeScanned (unit depth) (statement first))
          fun distance => resumeScanned (unit otherDepth) (otherStatement (first.shift distance)))
    (before : List Token) (reader : Reader) :
    Ends depth otherDepth before reader (resume (unit depth) (nestedIn (unit depth) statement))
      fun _ => resume (unit otherDepth) (nestedIn (unit otherDepth) otherStatement) := by
  simp only [resume_nestedIn]
  refine .unit deeper fun first middle read => ?_
  apply Ends.ite (fun _ => .of_failing (fun result run => by cases run) _)
  intro noEnd
  have ends := statements (before ++ [first]) (Token.before read) noEnd (by simp)
  exact ends.map (·.span.stop) (fun _ => (·.span.stop)) (fun _ => rfl) fun _ _ => rfl

theorem statement_ends (deeper : depth ≤ otherDepth) {fuel otherFuel : Nat}
    (enough : fuel ≤ otherFuel) (before : List Token) {reader : Reader} {first : Token}
    (stands : first.Before reader) (noEnd : first.kind ≠ .eof)
    (behindFirst : before.getLast?.map (·.kind) = some first.kind) :
    Ends depth otherDepth before reader
      (resumeScanned (unit depth) (statement (unit depth) fuel first))
      fun distance => resumeScanned (unit otherDepth)
        (statement (unit otherDepth) otherFuel (first.shift distance)) := by
  induction fuel generalizing otherFuel before reader first with
  | zero => exact .of_failing (fun result run => by cases run) _
  | succ fuel ih =>
      obtain ⟨otherFuel, rfl⟩ := Nat.exists_eq_add_one_of_ne_zero (by omega : otherFuel ≠ 0)
      have less : fuel ≤ otherFuel := by omega
      have closes := nestedIn_closes deeper fun stop => statement_closes deeper less stop
      have bodies := nestedIn_ends deeper fun before _ _ stands => ih less before stands
      exact statementOver_ends deeper enough closes bodies before stands noEnd behindFirst

end Relink
