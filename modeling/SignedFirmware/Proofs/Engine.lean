import SignedFirmware.Proofs.Sha2

namespace SignedFirmware

namespace HashEngine

/-- A call starts, continues or ends a digest, or computes a whole one. -/
inductive Call where
  | start (algorithm : Algorithm)
  | begin (algorithm : Algorithm)
  | write (data : Bytes)
  | finish (length : Nat)
  | digest (algorithm : Algorithm) (pieces : List Bytes)

namespace Call

/-- The algorithm of a call after which an engine waits for a message. -/
def opens? : Call → Option Algorithm
  | start algorithm => some algorithm
  | begin algorithm => some algorithm
  | _ => none

/-- This says whether a call ends with a finish. -/
def finishes : Call → Bool
  | finish _ => true
  | digest _ _ => true
  | _ => false

end Call

variable {σ : Type}

/-- The answer of a call has the bytes of a digest, or none. -/
def perform (engine : HashEngine σ) : Call → EStateM HashError σ Bytes
  | .start algorithm => do
      engine.start algorithm
      return []
  | .begin algorithm => do
      engine.begin algorithm
      return []
  | .write data => do
      engine.write data
      return []
  | .finish length => do
      let digest ← engine.finish length
      return digest.toList
  | .digest algorithm pieces => do
      let digest ← engine.digest algorithm pieces
      return digest.toList

/-- The state after a call, whatever the answer is. -/
def leaves (engine : HashEngine σ) (state : σ) (call : Call) : σ :=
  match engine.perform call state with
  | .ok _ after => after
  | .error _ after => after

/-- The state after a history of calls. -/
def stateAfter (engine : HashEngine σ) (state : σ) (history : List Call) : σ :=
  history.foldl engine.leaves state

/-- Every start in a history is followed by a finish. -/
def Idle (history : List Call) : Prop :=
  ∀ earlier opening later, history = earlier ++ opening :: later → opening.opens?.isSome →
    ∃ call ∈ later, call.finishes

/-- A history ends with a start and writes after it. -/
def Open (history : List Call) (algorithm : Algorithm) (pieces : List Bytes) : Prop :=
  ∃ earlier opening, opening.opens? = some algorithm ∧
    history = earlier ++ opening :: pieces.map .write

variable {history : List Call} {algorithm : Algorithm} {pieces : List Bytes}

theorem stateAfter_append (engine : HashEngine σ) (state : σ) (earlier later : List Call) :
    engine.stateAfter state (earlier ++ later) =
      engine.stateAfter (engine.stateAfter state earlier) later :=
  List.foldl_append

theorem stateAfter_cons (engine : HashEngine σ) (state : σ) (call : Call) (later : List Call) :
    engine.stateAfter state (call :: later) = engine.stateAfter (engine.leaves state call) later :=
  rfl

/-- A start in a longer history is its last call or comes before. -/
theorem concat_eq_append_cons {earlier later : List Call} {opening call : Call}
    (split : history ++ [call] = earlier ++ opening :: later) :
    later = [] ∧ call = opening ∨
      ∃ between, later = between ++ [call] ∧ history = earlier ++ opening :: between := by
  rcases List.eq_nil_or_concat later with rfl | ⟨between, last, rfl⟩
  · obtain ⟨-, same⟩ := List.append_inj' split rfl
    exact .inl ⟨rfl, List.singleton_inj.1 same⟩
  · rw [List.concat_eq_append, ← List.cons_append, ← List.append_assoc] at split
    obtain ⟨before, same⟩ := List.append_inj' split rfl
    obtain rfl := List.singleton_inj.1 same
    exact .inr ⟨between, List.concat_eq_append, before⟩

theorem idle_nil : Idle [] := by
  intro earlier opening later split
  exact absurd split.symm (List.append_ne_nil_of_right_ne_nil _ (List.cons_ne_nil _ _))

/-- A finish leaves nothing open. -/
theorem idle_of_finishes (history : List Call) {call : Call} (finishes : call.finishes)
    (closed : call.opens? = none) : Idle (history ++ [call]) := by
  intro earlier opening later split opens
  rcases concat_eq_append_cons split with ⟨-, rfl⟩ | ⟨between, rfl, -⟩
  · rw [closed] at opens
    cases opens
  · exact ⟨call, by simp, finishes⟩

theorem Idle.write (idle : Idle history) (data : Bytes) : Idle (history ++ [.write data]) := by
  intro earlier opening later split opens
  rcases concat_eq_append_cons split with ⟨-, rfl⟩ | ⟨between, rfl, before⟩
  · cases opens
  · obtain ⟨call, member, finishes⟩ := idle earlier opening between before opens
    exact ⟨call, List.mem_append_left _ member, finishes⟩

theorem Open.write (opened : Open history algorithm pieces) (data : Bytes) :
    Open (history ++ [.write data]) algorithm (pieces ++ [data]) := by
  obtain ⟨earlier, opening, opens, rfl⟩ := opened
  exact ⟨earlier, opening, opens, by simp⟩

/-- A history is not both idle and open, because no write is a finish. -/
theorem Open.not_idle (opened : Open history algorithm pieces) : ¬ Idle history := by
  intro idle
  obtain ⟨earlier, opening, opens, split⟩ := opened
  obtain ⟨call, member, finishes⟩ := idle earlier opening _ split (by rw [opens]; rfl)
  obtain ⟨data, -, rfl⟩ := List.mem_map.1 member
  cases finishes

/-- A start with writes after it is not in front of another one. -/
theorem eq_of_append_writes {earlier others : List Call} {first second : Call}
    {pieces parts : List Bytes} (opens : second.opens?.isSome)
    (same : earlier ++ first :: pieces.map .write = others ++ second :: parts.map .write)
    (shorter : earlier.length ≤ others.length) : first = second ∧ pieces = parts := by
  obtain ⟨between, rfl⟩ : earlier <+: others :=
    List.prefix_of_prefix_length_le ⟨_, same⟩ ⟨_, rfl⟩ shorter
  rw [List.append_assoc, List.append_cancel_left_eq] at same
  cases between with
  | nil =>
      obtain ⟨head, writes⟩ := List.cons.inj same
      exact ⟨head, (List.map_inj_right fun _ _ => Call.write.inj).1 writes⟩
  | cons call rest =>
      -- The second start would be one of the writes after the first one.
      have member : second ∈ pieces.map Call.write := by
        rw [(List.cons.inj same).2]
        simp
      obtain ⟨data, -, rfl⟩ := List.mem_map.1 member
      cases opens

/-- A history has one latest start. -/
theorem Open.unique {other : Algorithm} {parts : List Bytes}
    (opened : Open history algorithm pieces) (again : Open history other parts) :
    algorithm = other ∧ pieces = parts := by
  obtain ⟨earlier, first, opens, rfl⟩ := opened
  obtain ⟨others, second, chosen, same⟩ := again
  have both : first = second ∧ pieces = parts := by
    rcases Nat.le_total earlier.length others.length with shorter | longer
    · exact eq_of_append_writes (by rw [chosen]; rfl) same shorter
    · obtain ⟨calls, writes⟩ := eq_of_append_writes (by rw [opens]; rfl) same.symm longer
      exact ⟨calls.symm, writes.symm⟩
  obtain ⟨rfl, rfl⟩ := both
  exact ⟨Option.some.inj (opens.symm.trans chosen), rfl⟩

end HashEngine

namespace DigestContext

open HashEngine

variable {κ : Type} {contexts : DigestContext κ} {hash : Digests} {history : List Call}
  {state : Option κ} {algorithm : Algorithm} {pieces : List Bytes}

/-- A start begins a context, whatever the engine did before. -/
theorem leaves_of_opens {call : Call} (opens : call.opens? = some algorithm) (state : Option κ) :
    contexts.engine.leaves state call = some (contexts.new algorithm) := by
  cases call with
  | start chosen | begin chosen =>
      obtain rfl := Option.some.inj opens
      rfl
  | write | finish | digest => cases opens

theorem leaves_write (state : Option κ) (data : Bytes) :
    contexts.engine.leaves state (.write data) =
      state.map fun context => contexts.update context data := by
  cases state <;> rfl

/-- A finish takes the context, also if the length is wrong. -/
theorem leaves_finish (length : Nat) (state : Option κ) :
    contexts.engine.leaves state (.finish length) = none := by
  cases state with
  | none => rfl
  | some context =>
      by_cases same : (contexts.algorithm context).length = length
      · subst same
        simp [leaves, perform, engine, bind, EStateM.bind, pure, EStateM.pure]
      · simp [leaves, perform, engine, bind, EStateM.bind, same]

theorem Computes.leaves_of_finishes (computes : contexts.Computes hash) {call : Call}
    (finishes : call.finishes) (state : Option κ) : contexts.engine.leaves state call = none := by
  cases call with
  | start | begin | write => cases finishes
  | finish length => exact leaves_finish length state
  | digest algorithm pieces =>
      simp only [leaves, perform]
      rw [device_bind_of_ok (computes.engine_digest algorithm pieces state)]
      rfl

/-- The engine has a context for the writes since the latest start, or none. -/
inductive Tracks (contexts : DigestContext κ) (history : List Call) : Option κ → Prop where
  | idle (idle : Idle history) : Tracks contexts history none
  | writing {algorithm : Algorithm} {pieces : List Bytes}
      (opened : Open history algorithm pieces) :
      Tracks contexts history (some (contexts.after algorithm pieces))

/-- The engine is where its history leads after one more call. -/
theorem Tracks.call (computes : contexts.Computes hash) (tracks : contexts.Tracks history state)
    (call : Call) : contexts.Tracks (history ++ [call]) (contexts.engine.leaves state call) := by
  cases call with
  | start algorithm | begin algorithm =>
      -- What was open before is given up, whether it was finished or not.
      rw [leaves_of_opens rfl, ← after_nil]
      exact .writing ⟨history, _, rfl, rfl⟩
  | write data =>
      rw [leaves_write]
      cases tracks with
      | idle idle => exact .idle (idle.write data)
      | writing opened =>
          rw [Option.map_some, ← after_concat]
          exact .writing (opened.write data)
  | finish | digest =>
      rw [computes.leaves_of_finishes rfl]
      exact .idle (idle_of_finishes history rfl rfl)

/-- The engine is where its history leads after any further calls. -/
theorem Tracks.run (computes : contexts.Computes hash) (tracks : contexts.Tracks history state)
    (later : List Call) :
    contexts.Tracks (history ++ later) (contexts.engine.stateAfter state later) := by
  induction later generalizing history state with
  | nil =>
      rw [List.append_nil]
      exact tracks
  | cons call rest ih =>
      have further := ih (tracks.call computes call)
      rwa [List.append_assoc] at further

/-- A new engine goes where its history leads. -/
theorem Computes.tracks (computes : contexts.Computes hash) (history : List Call) :
    contexts.Tracks history (contexts.engine.stateAfter none history) :=
  (Tracks.idle idle_nil).run computes history

/-- An open history leads to the context of its writes. -/
theorem Tracks.eq_of_open (tracks : contexts.Tracks history state)
    (opened : Open history algorithm pieces) : state = some (contexts.after algorithm pieces) := by
  cases tracks with
  | idle idle => exact absurd idle opened.not_idle
  | writing other =>
      obtain ⟨rfl, rfl⟩ := opened.unique other
      rfl

theorem Tracks.exists_open (tracks : contexts.Tracks history state) (busy : ¬ Idle history) :
    ∃ algorithm pieces, Open history algorithm pieces := by
  cases tracks with
  | idle idle => exact absurd idle busy
  | writing opened => exact ⟨_, _, opened⟩

/-- An engine without a context is idle. -/
theorem Tracks.idle_iff (tracks : contexts.Tracks history state) :
    Idle history ↔ state = none := by
  cases tracks with
  | idle idle => exact iff_of_true idle rfl
  | writing opened => exact iff_of_false opened.not_idle nofun

theorem write_idle_iff {data : Bytes} :
    (∃ after, contexts.engine.write data state = .error .idle after) ↔ state = none := by
  cases state <;> simp [engine]

theorem finish_idle_iff {length : Nat} :
    (∃ after, contexts.engine.finish length state = .error .idle after) ↔ state = none := by
  cases state with
  | none => simp [engine]
  | some context =>
      by_cases same : (contexts.algorithm context).length = length
      · simp [engine, same]
      · simp [engine, same]

/-- What an engine answers depends only on the calls since the latest start. -/
theorem engine_follows (computes : contexts.Computes hash) (history : List Call) :
    let state := contexts.engine.stateAfter none history
    (∀ data, (∃ after, contexts.engine.write data state = .error .idle after) ↔ Idle history) ∧
      (∀ length,
        (∃ after, contexts.engine.finish length state = .error .idle after) ↔ Idle history) ∧
      (¬ Idle history → ∃ algorithm pieces, Open history algorithm pieces) ∧
      (∀ algorithm pieces, Open history algorithm pieces →
        (∀ data, ∃ after, contexts.engine.write data state = .ok () after) ∧
          contexts.engine.finish algorithm.length state =
            .ok (hash algorithm pieces.flatten) none ∧
          ∀ length ≠ algorithm.length,
            contexts.engine.finish length state = .error .wrongSize none) ∧
      (∀ call : Call, call.finishes →
        contexts.engine.stateAfter none (history ++ [call]) = none) ∧
      (∀ opening later, opening.opens?.isSome →
        contexts.engine.stateAfter none (history ++ opening :: later) =
          contexts.engine.stateAfter none (opening :: later)) ∧
      ∀ algorithm pieces,
        contexts.engine.digest algorithm pieces state = .ok (hash algorithm pieces.flatten) none ∧
          contexts.engine.digest algorithm [pieces.flatten] state =
            contexts.engine.digest algorithm pieces state := by
  intro state
  have tracks : contexts.Tracks history state := computes.tracks history
  refine ⟨?_, ?_, ?_, ?_, ?_, ?_, ?_⟩
  · intro data
    rw [write_idle_iff, tracks.idle_iff]
  · intro length
    rw [finish_idle_iff, tracks.idle_iff]
  · intro busy
    exact tracks.exists_open busy
  · intro algorithm pieces opened
    rw [tracks.eq_of_open opened]
    refine ⟨fun data => ⟨_, rfl⟩, computes.engine_finish algorithm pieces, ?_⟩
    intro length misfit
    exact computes.engine_finish_of_ne misfit pieces
  · intro call finishes
    rw [stateAfter_append]
    exact computes.leaves_of_finishes finishes _
  · intro opening later opens
    obtain ⟨algorithm, chosen⟩ := Option.isSome_iff_exists.1 opens
    rw [stateAfter_append, stateAfter_cons, stateAfter_cons, leaves_of_opens chosen,
      leaves_of_opens chosen]
  · intro algorithm pieces
    rw [computes.engine_digest, computes.engine_digest, List.flatten_singleton]
    exact ⟨rfl, rfl⟩

/-- A message is begun and given up for another one in two pieces. -/
theorem engine_follows_restart :
    let history : List Call :=
      [.digest .sha512 [[7]], .begin .sha384, .write [9],
        .start .sha256, .write [1, 2], .write [3]]
    Open history .sha256 [[1, 2], [3]] ∧
      Sha2.engine.finish 32 (Sha2.engine.stateAfter none history) =
        .ok (Sha2.digest .sha256 [1, 2, 3]) none ∧
      Sha2.engine.finish 48 (Sha2.engine.stateAfter none history) = .error .wrongSize none ∧
      ∃ after, Sha2.engine.write [4] (Sha2.engine.stateAfter none (history ++ [.finish 48])) =
        .error .idle after := by
  intro history
  have opened : Open history .sha256 [[1, 2], [3]] :=
    ⟨[.digest .sha512 [[7]], .begin .sha384, .write [9]], .start .sha256, rfl, rfl⟩
  obtain ⟨-, -, -, finished, -⟩ := engine_follows Sha2.sessions_computes history
  obtain ⟨-, right, wrong⟩ := finished .sha256 _ opened
  obtain ⟨stopped, -⟩ := engine_follows Sha2.sessions_computes (history ++ [.finish 48])
  exact ⟨opened, right, wrong 48 (by decide), (stopped [4]).2 (idle_of_finishes history rfl rfl)⟩

end DigestContext

end SignedFirmware
