import Kix.Proofs.Transcripts

/-!
# Runs whose output has no room

The same program is run on two machines that differ in their output stream alone: one
takes everything, the other a limited number of bytes. As long as what is written fits,
the second run does what the first one does. At the first write that does not fit the
second run ends: it has filled its stream, and the machine is as it was at the write.

`Truncates` says this of an evaluation. It holds of the operations that do not write, of
writing, it passes through sequencing and through frames, and so, by induction on the
number of steps, it holds of expressions, calls and statements (`truncating`). Which write
it was is said by `Writes`, for both runs.
-/

namespace Kix

/-! ## Streams -/

namespace Sink

/-- **The stream with a limit**: of what was written it has taken what fits. -/
def limited (s : Sink) (limit : Nat) : Sink :=
  { s with written := s.written.extract 0 limit, limit := some limit }

/-- **The stream that has taken more** and has not changed otherwise. -/
def Grows (s s' : Sink) : Prop := ∃ more, s' = { s with written := s.written ++ more }

namespace Grows

variable {s s' s'' : Sink}

theorem refl (s : Sink) : s.Grows s := ⟨.empty, by rw [ByteArray.append_empty]⟩

/-- Growing twice is growing. -/
theorem trans (h : s.Grows s') (h' : s'.Grows s'') : s.Grows s'' := by
  obtain ⟨more, rfl⟩ := h
  obtain ⟨more', rfl⟩ := h'
  exact ⟨more ++ more', by rw [ByteArray.append_assoc]⟩

/-- A stream keeps its limit. -/
theorem limit (h : s.Grows s') : s'.limit = s.limit := by
  obtain ⟨more, rfl⟩ := h
  rfl

theorem writeFault (h : s.Grows s') : s'.writeFault = s.writeFault := by
  obtain ⟨more, rfl⟩ := h
  rfl

/-- What was written stays. -/
theorem size_le (h : s.Grows s') : s.written.size ≤ s'.written.size := by
  obtain ⟨more, rfl⟩ := h
  rw [ByteArray.size_append]
  exact Nat.le_add_right _ _

/-- The bytes up to a limit that was reached before stay what they were. -/
theorem extract_eq (h : s.Grows s') {limit : Nat} (le : limit ≤ s.written.size) :
    s'.written.extract 0 limit = s.written.extract 0 limit := by
  obtain ⟨more, rfl⟩ := h
  show (s.written ++ more).extract 0 limit = _
  rw [ByteArray.extract_append, Nat.sub_eq_zero_of_le le, Nat.zero_sub, ByteArray.extract_same,
    ByteArray.append_empty]

/-- Behind a limit that was reached, nothing that is written later can be seen. -/
theorem limited_eq (h : s.Grows s') {limit : Nat} (le : limit ≤ s.written.size) :
    s'.limited limit = s.limited limit := by
  have kept := h.extract_eq le
  obtain ⟨more, rfl⟩ := h
  show Sink.mk _ _ _ _ = Sink.mk _ _ _ _
  rw [kept]

end Grows

/-- Bytes that fit are all taken. -/
theorem extract_of_size_le {bytes : ByteArray} {limit : Nat} (le : bytes.size ≤ limit) :
    bytes.extract 0 limit = bytes := by
  rw [← Nat.max_eq_left le, ByteArray.extract_zero_max_size]

variable {s : Sink}

/-- Writing to a stream without a limit adds to it. -/
theorem grows_put (unlimited : s.limit = none) (text : String) : s.Grows (s.put text) :=
  ⟨text.toUTF8, put_of_limit unlimited text⟩

/-- How much a write adds. -/
theorem size_put (unlimited : s.limit = none) (text : String) :
    (s.put text).written.size = s.written.size + text.utf8ByteSize := by
  rw [put_of_limit unlimited]
  exact ByteArray.size_append

theorem fits_of_limit (unlimited : s.limit = none) (text : String) : s.fits text = true := by
  unfold fits room?
  rw [unlimited]
  rfl

/-- The room on the limited stream. -/
theorem room?_limited (s : Sink) (limit : Nat) :
    (s.limited limit).room? = some (limit - s.written.size) := by
  show some (limit - (s.written.extract 0 limit).size) = _
  rw [ByteArray.size_extract]
  congr 1
  omega

/-- **Putting text on the limited stream.** -/
theorem put_limited (unlimited : s.limit = none) (limit : Nat) (text : String) :
    (s.limited limit).put text = (s.put text).limited limit := by
  rw [put_of_limit unlimited]
  unfold put
  rw [room?_limited]
  show Sink.mk (s.written.extract 0 limit ++ _) _ _ _
    = Sink.mk ((s.written ++ text.toUTF8).extract 0 limit) _ _ _
  rw [ByteArray.extract_append, Nat.zero_sub]
  rfl

/-- **A text fits under a limit** exactly if what was written before and the text do. -/
theorem fits_limited_iff (unlimited : s.limit = none) {limit : Nat}
    (room : s.written.size ≤ limit) (text : String) :
    (s.limited limit).fits text = true ↔ (s.put text).written.size ≤ limit := by
  unfold fits
  rw [room?_limited, size_put unlimited]
  show decide (text.utf8ByteSize ≤ limit - s.written.size) = true ↔ _
  rw [decide_eq_true_iff]
  omega

end Sink

/-! ## Writes -/

/-- The machine with a limit to its output. -/
def Machine.limited (m : Machine) (limit : Nat) : Machine := { m with out := m.out.limited limit }

/-- **A write that is about to be made**, what its failure would be reported as, and the
machine at that moment. -/
structure Write where
  text : String
  report : String → Report
  machine : Machine

namespace Write

/-- The machine behind the write, whether or not all of the text was taken. -/
def after (w : Write) : Machine := { w.machine with out := w.machine.out.put w.text }

/-- The same write where the output is limited. -/
def limited (w : Write) (limit : Nat) : Write := { w with machine := w.machine.limited limit }

/-- A limit can be set before a write or behind it. -/
theorem after_limited {w : Write} (unlimited : w.machine.out.limit = none) (limit : Nat) :
    (w.limited limit).after = w.after.limited limit := by
  show { w.machine with out := (w.machine.out.limited limit).put w.text } = _
  rw [Sink.put_limited unlimited]
  rfl

end Write

/-- **The writes that a task comes to.** -/
inductive Writes : Nat → Task → Machine → Write → Prop where
  | printed {steps : Nat} {e : Expr} {v : Value} {m m' : Machine} :
    evaluate steps e m = .ok v m' →
    Writes (steps + 1) (.statement (.print e)) m ⟨v.display ++ "\n", .stream, m'⟩
  | print {steps : Nat} {paren : Token} {v : Value} {m : Machine} :
    Writes (steps + 1) (.call (.native .print) paren [v]) m
      ⟨v.display, fun reason => .runtime paren.line (.other reason), m⟩
  | println {steps : Nat} {paren : Token} {v : Value} {m : Machine} :
    Writes (steps + 1) (.call (.native .println) paren [v]) m
      ⟨v.display ++ "\n", fun reason => .runtime paren.line (.other reason), m⟩
  | inside {steps : Nat} {t t' : Task} {m m' : Machine} {w : Write} :
    Spawns steps t m t' m' → Writes steps t' m' w → Writes (steps + 1) t m w

/-- The failure of a write is reported as one that ends a run, in the words of the stream. -/
theorem Writes.report {steps : Nat} {t : Task} {m : Machine} {w : Write}
    (h : Writes steps t m w) (reason : String) :
    (w.report reason).isRuntime = true ∧ (w.report reason).message = reason := by
  induction h with
  | printed | print | println => exact ⟨rfl, rfl⟩
  | inside _ _ ih => exact ih

/-- **A write that a task comes to with either output.** -/
structure Meets (limit steps : Nat) (t : Task) (m : Machine) (w : Write) : Prop where
  free : Writes steps t m w
  tight : Writes steps t (m.limited limit) (w.limited limit)

/-- A write inside of a task is one of the whole. -/
theorem Meets.inside {limit steps : Nat} {t t' : Task} {m m' : Machine} {w : Write}
    (spawns : Spawns steps t m t' m')
    (spawns' : Spawns steps t (m.limited limit) t' (m'.limited limit))
    (h : Meets limit steps t' m' w) : Meets limit (steps + 1) t m w :=
  ⟨.inside spawns h.free, .inside spawns' h.tight⟩

/-! ## Truncation -/

namespace Eval

variable {α β : Type}

/-- **How the two evaluations end**: alike, if what was written fits; otherwise the second
ends with a write that did not fit, and the first has written more. `makes` says of which
writes it can be. -/
inductive Truncated (limit : Nat) (makes : Write → Prop) (m : Machine) :
    EStateM.Result Halt Machine α → EStateM.Result Halt Machine α → Prop where
  | ok {a : α} {m' : Machine} (current : m'.current = m.current)
      (fits : m'.out.written.size ≤ limit) :
    Truncated limit makes m (.ok a m') (.ok a (m'.limited limit))
  | error {halt : Halt} {m' : Machine} (fits : m'.out.written.size ≤ limit) :
    Truncated limit makes m (.error halt m') (.error halt (m'.limited limit))
  | cut {w : Write} {r : EStateM.Result Halt Machine α} (made : makes w)
      (before : m.out.Grows w.machine.out) (room : w.machine.out.written.size ≤ limit)
      (passes : limit < w.after.out.written.size) (later : w.after.out.Grows (left r).out) :
    Truncated limit makes m r
      (.error (.fault (w.report m.out.writeFault))
        { w.after.limited limit with current := m.current })

/-- **An evaluation that yields a result**, with a limit too if what it wrote fits. -/
structure Reaches (limit : Nat) (x : Eval α) (m : Machine) (a : α) (m' : Machine) : Prop where
  free : x m = .ok a m'
  size_le : m.out.written.size ≤ m'.out.written.size
  tight : m'.out.written.size ≤ limit → x (m.limited limit) = .ok a (m'.limited limit)

/-- **A limit to the output only truncates**: an evaluation on a machine with an unlimited
output, and on the same machine with a limit. -/
structure Truncates (limit : Nat) (makes : Write → Prop) (x : Eval α) (m : Machine) : Prop where
  grows : m.out.limit = none → m.out.Grows (left (x m)).out
  truncated : m.out.limit = none → m.out.written.size ≤ limit →
    Truncated limit makes m (x m) (x (m.limited limit))

namespace Truncates

variable {limit : Nat} {makes makes' : Write → Prop} {m : Machine}

/-- A weaker condition on the writes. -/
theorem mono {x : Eval α} (h : Truncates limit makes x m)
    (weaker : m.out.written.size ≤ limit → ∀ w, makes w → makes' w) :
    Truncates limit makes' x m where
  grows := h.grows
  truncated unlimited room := by
    have ended := h.truncated unlimited room
    generalize x m = r, x (m.limited limit) = r' at ended ⊢
    cases ended with
    | ok current fits => exact .ok current fits
    | error fits => exact .error fits
    | cut made before room' passes later =>
      exact .cut (weaker room _ made) before room' passes later

/-- An evaluation that yields a result and has nothing to do with the output. -/
theorem ok {x : Eval α} (a : α) (m' : Machine)
    (h : ∀ out, x { m with out } = .ok a { m' with out })
    (current : m'.current = m.current) : Truncates limit makes x m where
  grows _ := by
    rw [show x m = _ from h m.out]
    exact .refl _
  truncated _ room := by
    rw [show x m = _ from h m.out, show x (m.limited limit) = _ from h (m.out.limited limit)]
    exact .ok current room

/-- An evaluation that halts and has nothing to do with the output. -/
theorem error {x : Eval α} (halt : Halt)
    (h : ∀ out, x { m with out } = .error halt { m with out }) : Truncates limit makes x m where
  grows _ := by
    rw [show x m = _ from h m.out]
    exact .refl _
  truncated _ room := by
    rw [show x m = _ from h m.out, show x (m.limited limit) = _ from h (m.out.limited limit)]
    exact .error room

theorem pure (a : α) : Truncates limit makes (Pure.pure a) m := .ok a m (fun _ => rfl) rfl

theorem throw (halt : Halt) : Truncates limit makes (MonadExcept.throw halt : Eval α) m :=
  .error halt fun _ => rfl

/-- What led to a result has only added to the output. -/
theorem grows_of_ok {x : Eval α} (h : Truncates limit makes x m) (unlimited : m.out.limit = none)
    {a : α} {m' : Machine} (free : x m = .ok a m') : m.out.Grows m'.out := by
  have grows := h.grows unlimited
  rwa [free] at grows

/-- If all that an evaluation writes fits, the limit makes no difference. -/
theorem reaches {x : Eval α} (h : Truncates limit makes x m) (unlimited : m.out.limit = none)
    {a : α} {m' : Machine} (free : x m = .ok a m') : Reaches limit x m a m' := by
  have grows := h.grows_of_ok unlimited free
  refine ⟨free, grows.size_le, fun fits => ?_⟩
  have ended := h.truncated unlimited (Nat.le_trans grows.size_le fits)
  rw [free] at ended
  generalize x (m.limited limit) = r' at ended ⊢
  cases ended with
  | ok => rfl
  | cut _ _ _ passes later =>
    exact absurd (Nat.le_trans later.size_le fits) (Nat.not_le_of_lt passes)

/-- **One evaluation after another.** -/
theorem bind {x : Eval α} {k : α → Eval β} (first : Truncates limit makes x m)
    (next : ∀ a m', Reaches limit x m a m' → Truncates limit makes (k a) m') :
    Truncates limit makes (x >>= k) m := by
  have grows : m.out.limit = none → ∀ a m', x m = .ok a m' → m'.out.limit = none
      ∧ m.out.Grows m'.out ∧ Truncates limit makes (k a) m' := by
    intro unlimited a m' free
    have start := first.grows_of_ok unlimited free
    exact ⟨start.limit.trans unlimited, start, next a m' (first.reaches unlimited free)⟩
  refine ⟨fun unlimited => ?_, fun unlimited room => ?_⟩
  · have start := first.grows unlimited
    cases free : x m with
    | ok a m' =>
      obtain ⟨unlimited', start, second⟩ := grows unlimited a m' free
      rw [bind_of_ok free]
      exact start.trans (second.grows unlimited')
    | error halt m' =>
      rw [free] at start
      rw [bind_of_error free]
      exact start
  · have ended := first.truncated unlimited room
    generalize free : x m = r, tight : x (m.limited limit) = r' at ended
    cases ended with
    | @ok a m' current fits =>
      obtain ⟨unlimited', start, second⟩ := grows unlimited a m' free
      rw [bind_of_ok free, bind_of_ok tight]
      have later := second.truncated unlimited' fits
      generalize k a m' = r, k a (m'.limited limit) = r' at later
      cases later with
      | ok current' fits' => exact .ok (current'.trans current) fits'
      | error fits' => exact .error fits'
      | cut made before room' passes later =>
        rw [start.writeFault, current]
        exact .cut made (start.trans before) room' passes later
    | error fits =>
      rw [bind_of_error free, bind_of_error tight]
      exact .error fits
    | cut made before room' passes later =>
      rw [bind_of_error tight]
      refine .cut made before room' passes ?_
      -- What follows in the first evaluation can only write more.
      cases r with
      | ok a m' =>
        obtain ⟨unlimited', -, second⟩ := grows unlimited a m' free
        rw [bind_of_ok free]
        exact later.trans (second.grows unlimited')
      | error halt m' =>
        rw [bind_of_error free]
        exact later

/-- Both evaluations take the same branch, since a limit decides nothing. -/
theorem ite {x y : Eval α} {p : Prop} [Decidable p] (h : p → Truncates limit makes x m)
    (h' : ¬p → Truncates limit makes y m) : Truncates limit makes (if p then x else y) m := by
  by_cases hp : p
  · rw [if_pos hp]
    exact h hp
  · rw [if_neg hp]
    exact h' hp

/-- Running in a new frame. -/
theorem within {x : Eval α} {frame : Frame Value}
    (inside : Truncates limit makes x (m.enter frame)) :
    Truncates limit makes (Eval.within frame x) m where
  grows unlimited := by
    have grows := inside.grows unlimited
    cases free : x (m.enter frame) with
    | ok a m' =>
      rw [free] at grows
      rw [within_of_ok free]
      exact grows
    | error halt m' =>
      rw [free] at grows
      rw [within_of_error free]
      exact grows
  truncated unlimited room := by
    have ended := inside.truncated unlimited room
    generalize free : x (m.enter frame) = r, tight : x ((m.enter frame).limited limit) = r' at ended
    replace tight : x ((m.limited limit).enter frame) = r' := tight
    cases ended with
    | ok current fits =>
      rw [within_of_ok free, within_of_ok tight]
      exact .ok rfl fits
    | error fits =>
      rw [within_of_error free, within_of_error tight]
      exact .error fits
    | cut made before room' passes later =>
      rw [within_of_error tight]
      refine .cut made before room' passes ?_
      cases r with
      | ok a m' =>
        rw [within_of_ok free]
        exact later
      | error halt m' =>
        rw [within_of_error free]
        exact later

/-- **Writing**: what does not fit is cut off there. -/
theorem write {text : String} {report : String → Report}
    (made : m.out.written.size ≤ limit → makes ⟨text, report, m⟩) :
    Truncates limit makes (Eval.write text report) m := by
  have written (unlimited : m.out.limit = none) :
      Eval.write text report m = .ok () { m with out := m.out.put text } := by
    unfold Eval.write
    rw [if_pos (Sink.fits_of_limit unlimited text)]
  refine ⟨fun unlimited => ?_, fun unlimited room => ?_⟩
  · rw [written unlimited]
    exact Sink.grows_put unlimited text
  · rw [written unlimited]
    have put : { m.limited limit with out := (m.limited limit).out.put text }
        = ({ m with out := m.out.put text } : Machine).limited limit :=
      congrArg (fun out => { m with out }) (Sink.put_limited unlimited limit text)
    unfold Eval.write
    by_cases fits : (m.limited limit).out.fits text = true
    · rw [if_pos fits, put]
      exact .ok rfl ((Sink.fits_limited_iff unlimited room text).1 fits)
    · rw [if_neg fits, put]
      have passes := Nat.lt_of_not_le fun h =>
        fits ((Sink.fits_limited_iff unlimited room text).2 h)
      exact .cut (made room) (.refl _) room passes (.refl _)

/-- What a task comes to, a task that performs it comes to. -/
theorem inside {x : Eval α} {steps : Nat} {t t' : Task} {m' : Machine}
    (h : Truncates limit (Meets limit steps t' m') x m') (free : Spawns steps t m t' m')
    (tight : m'.out.written.size ≤ limit →
      Spawns steps t (m.limited limit) t' (m'.limited limit)) :
    Truncates limit (Meets limit (steps + 1) t m) x m' :=
  h.mono fun room _ meets => meets.inside free (tight room)

end Truncates

/-! ## Single operations -/

section Operations

variable {limit : Nat} {makes : Write → Prop} {m : Machine}

theorem readClock_truncates : Truncates limit makes readClock m :=
  .ok (m.clock m.readings) { m with readings := m.readings + 1 } (fun _ => rfl) rfl

theorem close_truncates (name : Token) (params : List Token) (body : List Stmt) :
    Truncates limit makes (close name params body) m :=
  .ok (.closure ⟨m.nextClosure, name.lexeme, params, body, m.current⟩)
    { m with nextClosure := m.nextClosure + 1 } (fun _ => rfl) rfl

/-- Defining a variable writes nothing. -/
theorem define_truncates (name : Token) (value : Value) :
    Truncates limit makes (define name value) m := by
  cases current : m.current with
  | some frame =>
    refine .ok () { m with store := m.store.define frame value } (fun out => ?_) rfl
    unfold define
    dsimp only
    rw [current]
  | none =>
    refine .ok () { m with globals := m.globals.insert name.lexeme value } (fun out => ?_) rfl
    unfold define
    dsimp only
    rw [current]

/-- Looking a variable up writes nothing. -/
theorem lookup_truncates (id : OccurrenceId) (name : Token) :
    Truncates limit makes (lookup id name) m := by
  unfold lookup
  cases addressed : m.addresses[id]? with
  | some a =>
    cases found : m.current.bind (m.store.getAt? · a.distance a.slot) with
    | some value => exact .ok value m (fun out => by simp only [addressed, found]) rfl
    | none =>
      exact .error (.fault (.runtime name.line (.missingLocal name.lexeme)))
        fun out => by simp only [addressed, found]
  | none =>
    cases found : m.globals[name.lexeme]? with
    | some value => exact .ok value m (fun out => by simp only [addressed, found]) rfl
    | none =>
      exact .error (.fault (.runtime name.line (.undefinedGlobal name.lexeme)))
        fun out => by simp only [addressed, found]

/-- Assigning to a variable writes nothing. -/
theorem assign_truncates (id : OccurrenceId) (name : Token) (value : Value) :
    Truncates limit makes (assign id name value) m := by
  unfold assign
  cases addressed : m.addresses[id]? with
  | some a =>
    cases found : m.current.bind (m.store.frameAt? · a.distance a.slot) with
    | some frame =>
      exact .ok () { m with store := m.store.set frame a.slot value }
        (fun out => by simp only [addressed, found]) rfl
    | none =>
      exact .error (.fault (.runtime name.line (.missingLocal name.lexeme)))
        fun out => by simp only [addressed, found]
  | none =>
    by_cases known : m.globals.contains name.lexeme = true
    · exact .ok () { m with globals := m.globals.insert name.lexeme value }
        (fun out => by simp only [addressed, if_pos known]) rfl
    · exact .error (.fault (.runtime name.line (.undefinedGlobal name.lexeme)))
        fun out => by simp only [addressed, if_neg known]

theorem ofOperator_truncates (operator : Token) (r : Except Problem Value) :
    Truncates limit makes (ofOperator operator r) m := by
  cases r with
  | ok value => exact .pure value
  | error problem => exact .throw _

theorem checkCall_truncates (callee : Value) (paren : Token) (given : Nat) :
    Truncates limit makes (checkCall callee paren given) m := by
  unfold checkCall
  cases callee.arity? with
  | none => exact .throw _
  | some arity => exact .ite (fun _ => .pure ()) fun _ => .throw _

/-- A value is called only with as many arguments as it takes. -/
theorem of_checkCall {callee : Value} {paren : Token} {given : Nat} {m' : Machine}
    (ok : checkCall callee paren given m = .ok () m') : callee.arity? = some given ∧ m' = m := by
  unfold checkCall at ok
  cases arity : callee.arity? with
  | none =>
    rw [arity] at ok
    exact nomatch ok
  | some arity =>
    rw [arity] at ok
    dsimp only at ok
    split at ok
    · next same =>
      cases ok
      exact ⟨congrArg some same.symm, rfl⟩
    · exact nomatch ok

end Operations
end Eval

/-! ## Evaluation -/

open Eval

/-- **A limit only truncates**, within a number of steps. -/
structure Truncating (limit steps : Nat) : Prop where
  evaluate : ∀ (e : Expr) (m : Machine),
    Truncates limit (Meets limit steps (.expression e) m) (evaluate steps e) m
  evaluateAll : ∀ (es : List Expr) (m : Machine),
    Truncates limit (Meets limit steps (.arguments es) m) (evaluateAll steps es) m
  call : ∀ (callee : Value) (paren : Token) (given : List Value) (m : Machine),
    Truncates limit (Meets limit steps (.call callee paren given) m)
      (call steps callee paren given) m
  execute : ∀ (s : Stmt) (m : Machine),
    Truncates limit (Meets limit steps (.statement s) m) (execute steps s) m
  executeAll : ∀ (body : List Stmt) (m : Machine),
    Truncates limit (Meets limit steps (.body body) m) (executeAll steps body) m

namespace Truncating

variable {limit steps : Nat}

/-- **One step more for an expression**, by its cases. -/
theorem evaluate_succ (h : Truncating limit steps) (e : Expr) (m : Machine) :
    Truncates limit (Meets limit (steps + 1) (.expression e) m) (Kix.evaluate (steps + 1) e) m := by
  cases e with
  | literal value => exact .pure (Value.ofLiteral value)
  | absent => exact .pure Value.nil
  | group inner => exact (h.evaluate inner m).inside .inner fun _ => .inner
  | unary operator operand =>
    refine ((h.evaluate operand m).inside .operand fun _ => .operand).bind fun _ _ _ => ?_
    exact ofOperator_truncates operator _
  | binary left operator right =>
    refine ((h.evaluate left m).inside .left fun _ => .left).bind fun _ m₁ ran => ?_
    refine ((h.evaluate right m₁).inside (.right ran.free) fun fits => .right (ran.tight fits)).bind
      fun _ _ _ => ?_
    exact ofOperator_truncates operator _
  | logical left operator right =>
    refine ((h.evaluate left m).inside .first fun _ => .first).bind fun a m₁ ran => ?_
    refine .ite (fun _ => .pure a) fun undecided => ?_
    replace undecided := eq_false_of_ne_true undecided
    exact (h.evaluate right m₁).inside (.second ran.free undecided) fun fits =>
      .second (ran.tight fits) undecided
  | conditional condition thenBranch elseBranch =>
    refine ((h.evaluate condition m).inside .test fun _ => .test).bind fun a m₁ ran => ?_
    rw [← apply_ite (Kix.evaluate steps)]
    exact (h.evaluate _ m₁).inside (.choice ran.free) fun fits => .choice (ran.tight fits)
  | var id name => exact lookup_truncates id name
  | assign id name value =>
    refine ((h.evaluate value m).inside .assigned fun _ => .assigned).bind fun a m₁ _ => ?_
    exact (assign_truncates id name a).bind fun _ _ _ => .pure a
  | call callee paren arguments =>
    refine ((h.evaluate callee m).inside .callee fun _ => .callee).bind fun f m₁ ran => ?_
    refine ((h.evaluateAll arguments m₁).inside (.given ran.free)
      fun fits => .given (ran.tight fits)).bind fun given m₂ ran' => ?_
    exact (h.call f paren given m₂).inside (.call ran.free ran'.free) fun fits =>
      .call (ran.tight (Nat.le_trans ran'.size_le fits)) (ran'.tight fits)

/-- One step more for arguments. -/
theorem evaluateAll_succ (h : Truncating limit steps) (es : List Expr) (m : Machine) :
    Truncates limit (Meets limit (steps + 1) (.arguments es) m)
      (Kix.evaluateAll (steps + 1) es) m := by
  cases es with
  | nil => exact .pure []
  | cons e rest =>
    refine ((h.evaluate e m).inside .argument fun _ => .argument).bind fun value m₁ ran => ?_
    refine ((h.evaluateAll rest m₁).inside (.arguments ran.free)
      fun fits => .arguments (ran.tight fits)).bind fun others _ _ => ?_
    exact .pure (value :: others)

/-- Calling a native function: it writes its argument, if it writes. -/
theorem callNative_truncates (native : Native) (paren : Token) (given : List Value) {m : Machine}
    (fits : native.arity = given.length) :
    Truncates limit (Meets limit (steps + 1) (.call (.native native) paren given) m)
      (callNative native paren given) m := by
  match native, given with
  | .clock, _ => exact readClock_truncates.bind fun _ _ _ => .pure _
  | .print, [v] =>
    exact (Truncates.write fun _ => ⟨.print, .print⟩).bind fun _ _ _ => .pure Value.nil
  | .println, [v] =>
    exact (Truncates.write fun _ => ⟨.println, .println⟩).bind fun _ _ _ => .pure Value.nil

/-- **One step more for a call.** Two built-in functions write. -/
theorem call_succ (h : Truncating limit steps) (callee : Value) (paren : Token)
    (given : List Value) (m : Machine) :
    Truncates limit (Meets limit (steps + 1) (.call callee paren given) m)
      (Kix.call (steps + 1) callee paren given) m := by
  refine (checkCall_truncates callee paren given.length).bind fun _ m₁ ran => ?_
  obtain ⟨arity, rfl⟩ := of_checkCall ran.free
  cases callee with
  | native native => exact callNative_truncates native paren given (Option.some.inj arity)
  | closure f =>
    have fits : given.length = f.params.length := (Option.some.inj arity).symm
    refine ((h.executeAll f.body _).inside (.callBody fits) fun _ => .callBody fits).within.bind
      fun flow _ _ => ?_
    cases flow with
    | returned value => exact .pure value
    | normal => exact .pure Value.nil
  | _ => exact .throw _

/-- **One step more for a statement**, by its cases. A `print` statement writes. -/
theorem execute_succ (h : Truncating limit steps) (s : Stmt) (m : Machine) :
    Truncates limit (Meets limit (steps + 1) (.statement s) m) (Kix.execute (steps + 1) s) m := by
  cases s with
  | expression value =>
    exact ((h.evaluate value m).inside .expression fun _ => .expression).bind fun _ _ _ =>
      .pure Flow.normal
  | print value =>
    refine ((h.evaluate value m).inside .printed fun _ => .printed).bind fun a m₁ ran => ?_
    refine (Truncates.write fun fits => ?_).bind fun _ _ _ => .pure Flow.normal
    exact ⟨.printed ran.free, .printed (ran.tight fits)⟩
  | var name initializer =>
    refine ((h.evaluate initializer m).inside .initializer fun _ => .initializer).bind
      fun value m₁ _ => ?_
    exact (define_truncates name value).bind fun _ _ _ => .pure Flow.normal
  | block body =>
    have read : Truncates limit (Meets limit (steps + 1) (.statement (.block body)) m)
        currentFrame m := .ok m.current m (fun _ => rfl) rfl
    refine read.bind fun parent m₁ ran => ?_
    have here : EStateM.Result.ok m.current m = .ok parent m₁ := ran.free
    cases here
    exact ((h.executeAll body _).inside .block fun _ => .block).within
  | branch condition thenBranch elseBranch =>
    refine ((h.evaluate condition m).inside .condition fun _ => .condition).bind
      fun a m₁ ran => ?_
    rw [← apply_ite (Kix.execute steps)]
    exact (h.execute _ m₁).inside (.branch ran.free) fun fits => .branch (ran.tight fits)
  | loop condition body =>
    refine ((h.evaluate condition m).inside .loopCondition fun _ => .loopCondition).bind
      fun a m₁ ran => ?_
    refine .ite (fun truthy => ?_) fun _ => .pure Flow.normal
    refine ((h.execute body m₁).inside (.loopBody ran.free truthy)
      fun fits => .loopBody (ran.tight fits) truthy).bind fun flow m₂ ran' => ?_
    cases flow with
    | normal =>
      exact (h.execute (.loop condition body) m₂).inside (.loopAgain ran.free truthy ran'.free)
        fun fits =>
          .loopAgain (ran.tight (Nat.le_trans ran'.size_le fits)) truthy (ran'.tight fits)
    | returned value => exact .pure (Flow.returned value)
  | function name params body =>
    refine (close_truncates name params body).bind fun f m₁ _ => ?_
    exact (define_truncates name f).bind fun _ _ _ => .pure Flow.normal
  | ret keyword value =>
    exact ((h.evaluate value m).inside .returned fun _ => .returned).bind fun a _ _ =>
      .pure (Flow.returned a)
  | absent => exact .pure Flow.normal

/-- One step more for a body. -/
theorem executeAll_succ (h : Truncating limit steps) (body : List Stmt) (m : Machine) :
    Truncates limit (Meets limit (steps + 1) (.body body) m)
      (Kix.executeAll (steps + 1) body) m := by
  cases body with
  | nil => exact .pure Flow.normal
  | cons s rest =>
    refine ((h.execute s m).inside .statement fun _ => .statement).bind fun flow m₁ ran => ?_
    cases flow with
    | normal =>
      exact (h.executeAll rest m₁).inside (.body ran.free) fun fits => .body (ran.tight fits)
    | returned value => exact .pure (Flow.returned value)

end Truncating

/-- **A limit only truncates.** -/
theorem truncating (limit steps : Nat) : Truncating limit steps := by
  induction steps with
  | zero =>
    exact ⟨fun _ _ => .throw _, fun _ _ => .throw _, fun _ _ _ _ => .throw _,
      fun _ _ => .throw _, fun _ _ => .throw _⟩
  | succ steps ih =>
    exact ⟨ih.evaluate_succ, ih.evaluateAll_succ, ih.call_succ, ih.execute_succ,
      ih.executeAll_succ⟩

/-! ## Runs -/

namespace Machine

/-- **A run that a limit cuts off**: it comes to a write that does not fit, fills the stream
and ends there. Without the limit the run has gone on from that write. -/
structure CutOff (limit : Nat) (m : Machine) (steps : Nat) (program : Program) (w : Write) :
    Prop where
  meets : Meets limit steps (.body program) m w
  before : m.out.Grows w.machine.out
  room : w.machine.out.written.size ≤ limit
  passes : limit < w.after.out.written.size
  ended : (m.limited limit).run? steps program
    = some (some (w.report m.out.writeFault), { w.after.limited limit with current := none })
  later : ∀ report m', m.run? steps program = some (report, m') → w.after.out.Grows m'.out

variable {m m' : Machine} {limit steps : Nat} {program : Program} {report : Option Report}

/-- A run adds to what was written. -/
theorem grows_of_run? (unlimited : m.out.limit = none)
    (ran : m.run? steps program = some (report, m')) : m.out.Grows m'.out := by
  have grows := ((truncating 0 steps).executeAll program m).grows unlimited
  unfold run? at ran
  generalize executeAll steps program m = r at grows ran
  match r with
  | .ok _ _ | .error (.fault _) _ =>
    cases ran
    exact grows

/-- **A run with a limit** is the same as without it, or is cut off. -/
theorem run?_limited (unlimited : m.out.limit = none) (room : m.out.written.size ≤ limit)
    (steps : Nat) (program : Program) :
    ((∀ report m', m.run? steps program = some (report, m') → m'.out.written.size ≤ limit)
      ∧ (m.limited limit).run? steps program
        = (m.run? steps program).map fun r => (r.1, r.2.limited limit))
    ∨ ∃ w, m.CutOff limit steps program w := by
  have ended := ((truncating limit steps).executeAll program m).truncated unlimited room
  generalize free : executeAll steps program m = r,
    tight : executeAll steps program (m.limited limit) = r' at ended
  cases ended with
  | ok _ fits =>
    refine .inl ⟨fun report m' ran => ?_, ?_⟩
    · unfold run? at ran
      rw [free] at ran
      cases ran
      exact fits
    · unfold run?
      rw [free, tight]
      rfl
  | @error halt m₁ fits =>
    refine .inl ⟨fun report m' ran => ?_, ?_⟩
    · unfold run? at ran
      rw [free] at ran
      cases halt with
      | fault report =>
        cases ran
        exact fits
      | exhausted => exact nomatch ran
    · unfold run?
      rw [free, tight]
      cases halt <;> rfl
  | @cut w _ made before room' passes later =>
    refine .inr ⟨w, made, before, room', passes, ?_, fun report m' ran => ?_⟩
    · unfold run?
      rw [tight]
    · unfold run? at ran
      rw [free] at ran
      match r with
      | .ok _ _ | .error (.fault _) _ =>
        cases ran
        exact later

/-- **A full stream stays as it is**, whatever is run. -/
theorem out_of_run?_full (full : m.out.limit = some m.out.written.size)
    (ran : m.run? steps program = some (report, m')) : m'.out = m.out := by
  -- The machine is one without a limit that is given the limit it has reached.
  let free : Machine := { m with out := { m.out with limit := none } }
  have same : free.out.limited m.out.written.size = m.out := by
    show Sink.mk (m.out.written.extract 0 m.out.written.size) _ _ _ = m.out
    rw [Sink.extract_of_size_le (Nat.le_refl _), ← full]
  have same' : free.limited m.out.written.size = m :=
    congrArg (fun out => { m with out }) same
  have grown {out : Sink} (grows : free.out.Grows out) : out.limited m.out.written.size = m.out :=
    (grows.limited_eq (Nat.le_refl _)).trans same
  rcases run?_limited (m := free) rfl (Nat.le_refl _) steps program with ⟨-, ended⟩ | ⟨w, cut⟩
  · rw [same', ran] at ended
    obtain ⟨⟨report', m₁⟩, ran', here⟩ := Option.map_eq_some_iff.1 ended.symm
    cases here
    exact grown (grows_of_run? rfl ran')
  · have ended := cut.ended
    rw [same', ran] at ended
    cases ended
    have unlimited : w.machine.out.limit = none := cut.before.limit
    exact grown (cut.before.trans (Sink.grows_put unlimited w.text))

end Machine

end Kix
