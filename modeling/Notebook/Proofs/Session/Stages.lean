import Notebook.Proofs.Session.Jobs

/-!
# The stages of one session

What the stage of a session tells, and what becomes of calls to shut it down, whatever its worker works
on.  One move is looked at here (`Session.turns_step`); what holds of a session from its beginning on is
collected in `Session.Orderly`.
-/

namespace Notebook

namespace Touch

/-- Evaluations begin and end one after the other, and nothing else is done to the stage before one has
ended.  `inside` tells whether one has begun. -/
def Paired : Bool → List Touch → Prop
  | inside, [] => inside = false
  | inside, becomeReady :: touches => inside = false ∧ Paired false touches
  | inside, enter :: touches => inside = false ∧ Paired true touches
  | inside, leave :: touches => inside = true ∧ Paired false touches

theorem paired_ofEvaluations (n : Nat) : Paired false (ofEvaluations n) := by
  induction n with
  | zero => rfl
  | succ n ih => exact ⟨rfl, rfl, ih⟩

/-- Where a job stands that has still to do something to the stage: the session is evaluating only in the
middle of an evaluation that has changed the stage itself. -/
def Standing (entered : Bool) (touches : List Touch) (stage : Stage) : Prop :=
  ∃ inside, Paired inside touches ∧ (stage = .evaluating → inside = true ∧ entered = true)

theorem Standing.start {touches : List Touch} (h : Paired false touches) {stage : Stage}
    (hstage : stage ≠ .evaluating) : Standing false touches stage :=
  ⟨false, h, fun heval => (hstage heval).elim⟩

theorem Standing.finish {entered : Bool} {stage : Stage} (h : Standing entered [] stage) :
    stage ≠ .evaluating := by
  obtain ⟨inside, houtside, heval⟩ := h
  intro hstage
  exact Bool.false_ne_true (houtside.symm.trans (heval hstage).1)

theorem Standing.apply {entered : Bool} {touch : Touch} {touches : List Touch} {stage : Stage}
    (h : Standing entered (touch :: touches) stage) :
    Standing (touch.apply entered stage).1 touches (touch.apply entered stage).2 := by
  obtain ⟨inside, hpaired, heval⟩ := h
  cases touch with
  | becomeReady =>
    obtain ⟨rfl, hrest⟩ := hpaired
    refine ⟨false, hrest, fun hstage => ?_⟩
    -- becoming ready leads to no evaluation
    cases stage with
    | evaluating => exact heval rfl
    | _ => cases hstage
  | enter =>
    obtain ⟨rfl, hrest⟩ := hpaired
    refine ⟨true, hrest, fun hstage => ⟨rfl, ?_⟩⟩
    cases stage with
    | ready => rfl
    | evaluating => exact absurd (heval rfl).1 Bool.false_ne_true
    | _ => cases hstage
  | leave =>
    obtain ⟨rfl, hrest⟩ := hpaired
    refine ⟨false, hrest, fun hstage => ?_⟩
    -- the evaluation takes back what it has changed, whatever it came to
    cases entered with
    | true => cases stage <;> cases hstage
    | false => exact absurd (heval hstage).2 Bool.false_ne_true

theorem apply_closed (entered : Bool) (touch : Touch) : (touch.apply entered .closed).2 = .closed := by
  cases touch <;> cases entered <;> rfl

theorem isClosing_apply {stage : Stage} (h : stage.isClosing = true) (entered : Bool) (touch : Touch) :
    (touch.apply entered stage).2.isClosing = true := by
  revert h
  cases touch <;> cases entered <;> cases stage <;> decide

end Touch

/-- The call to shut down that a command comes from. -/
def Command.shutdown? {J : Type} : Command J → Option Ticket
  | .run _ _ => none
  | .shutdown ticket => some ticket

/-- The call to shut down. -/
def Call.shutdown? {J : Type} : Call J → Option Ticket
  | .submit _ _ _ => none
  | .shutdown ticket => some ticket

namespace Worker

variable {J α : Type}

/-- The call to shut down that the worker is about to answer. -/
def shutdown? : Worker J α → Option Ticket
  | holding c => c.shutdown?
  | closing ticket | leaving ticket => some ticket
  | _ => none

/-- The worker will do nothing for the session any more but answer. -/
def hasStopped : Worker J α → Bool
  | leaving _ | broken | abandoning | ended => true
  | _ => false

/-- What the stage can be while the worker is where it is. -/
def Allows (worker : Worker J α) (stage : Stage) : Prop :=
  match worker with
  | running _ entered touches _ => Touch.Standing entered touches stage
  | leaving _ | broken | abandoning | ended => stage = .closed
  | _ => stage ≠ .evaluating

theorem Allows.closed {worker : Worker J α} {stage : Stage} (h : worker.Allows stage)
    (hstopped : worker.hasStopped = true) : stage = .closed := by
  cases worker with
  | leaving | broken | abandoning | ended => exact h
  | _ => cases hstopped

/-- No evaluation is going on while no job is being done. -/
theorem Allows.not_evaluating {worker : Worker J α} {stage : Stage} (h : worker.Allows stage)
    (hrests : worker.running? = none) : stage ≠ .evaluating := by
  cases worker with
  | running => cases hrests
  | leaving | broken | abandoning | ended =>
    rintro rfl
    cases h
  | _ => exact h

/-- Where the worker is, a change of the stage that leads to no evaluation makes no difference, and while
the session is closed there is none. -/
theorem Allows.of_stage {worker : Worker J α} {stage stage' : Stage} (h : worker.Allows stage)
    (heval : stage' ≠ .evaluating) (hclosed : stage = .closed → stage' = .closed) :
    worker.Allows stage' := by
  cases worker with
  | running t entered touches result =>
    obtain ⟨inside, hpaired, -⟩ := h
    exact ⟨inside, hpaired, fun hstage => (heval hstage).elim⟩
  | leaving | broken | abandoning | ended => exact hclosed h
  | _ => exact heval

end Worker

namespace Session

variable {W J α : Type}

/-! ## Calls to shut a session down -/

/-- Calls to shut the session down that have changed the stage and have not been answered. -/
def shuttingDown (s : Session J α) : List Ticket :=
  s.calls.filterMap Call.shutdown? ++ (s.queue.filterMap Command.shutdown? ++ s.worker.shutdown?.toList)

/-- The calls that were answered that they have shut the session down. -/
def successes (s : Session J α) : List (Ticket × Answer Unit) :=
  s.closings.filter fun closing => closing.2 = .done ()

/-- All calls to shut the session down that have changed the stage or been refused. -/
def shutdowns (s : Session J α) : List Ticket := s.shuttingDown ++ s.closings.map (·.1)

/-- How many calls have shut the session down, or are about to do so. -/
def winners (s : Session J α) : Nat := s.shuttingDown.length + s.successes.length

/-- What a move does, as far as the stage and calls to shut down are concerned. `new` is the call that
changes the stage or is refused in it. -/
structure Turns (s : Session J α) (new : List Ticket) (s' : Session J α) : Prop where
  allows : s.worker.Allows s.stage → s'.worker.Allows s'.stage
  closing : s.stage.isClosing = true → s'.stage.isClosing = true
  closed : s.stage = .closed → s'.stage = .closed
  /-- No call is lost. -/
  shutdowns : s'.shutdowns.Perm (s.shutdowns ++ new)
  numbers : new = [] ∧ s.nextTicket ≤ s'.nextTicket ∨
    new = [s.nextTicket] ∧ s'.nextTicket = s.nextTicket + 1
  /-- A call gets through only by closing a session that was open. -/
  winners : s'.winners ≤ s.winners ∨
    s'.winners = s.winners + 1 ∧ s.stage.isClosing = false ∧ s'.stage.isClosing = true
  ended : (s.successes ≠ [] → s.worker = .ended) → s'.successes ≠ [] → s'.worker = .ended

/-- A change that concerns no call to shut down. -/
theorem turns_rests {s s' : Session J α} (hallows : s.worker.Allows s.stage → s'.worker.Allows s'.stage)
    (hclosing : s.stage.isClosing = true → s'.stage.isClosing = true)
    (hclosed : s.stage = .closed → s'.stage = .closed) (hsame : s'.shuttingDown.Perm s.shuttingDown)
    (hclosings : s'.closings = s.closings) (hnext : s.nextTicket ≤ s'.nextTicket)
    (hended : s.worker = .ended → s'.worker = .ended) : s.Turns [] s' := by
  have hsuccesses : s'.successes = s.successes := congrArg (List.filter _) hclosings
  refine ⟨hallows, hclosing, hclosed, ?_, .inl ⟨rfl, hnext⟩, .inl ?_, fun h hs => ?_⟩
  · rw [List.append_nil, Session.shutdowns, hclosings]
    exact hsame.append_right _
  · rw [Session.winners, hsame.length_eq, hsuccesses]
    exact Nat.le_refl _
  · rw [hsuccesses] at hs
    exact hended (h hs)

/-- A change that leaves the stage alone, and concerns no call to shut down. -/
theorem turns_quiet {s s' : Session J α} (hallows : s.worker.Allows s.stage → s'.worker.Allows s'.stage)
    (hstage : s'.stage = s.stage) (hsame : s'.shuttingDown.Perm s.shuttingDown)
    (hclosings : s'.closings = s.closings) (hnext : s.nextTicket ≤ s'.nextTicket)
    (hended : s.worker = .ended → s'.worker = .ended) : s.Turns [] s' := by
  refine turns_rests hallows (fun h => ?_) (fun h => ?_) hsame hclosings hnext hended
  · rw [hstage]
    exact h
  · rw [hstage]
    exact h

/-- A call to shut down that is on its way is refused. -/
theorem turns_refuses {s s' : Session J α} {t : Ticket} (hstage : s'.stage = s.stage)
    (hworker : s'.worker = s.worker) (hperm : s.shuttingDown.Perm (t :: s'.shuttingDown))
    (hclosings : s'.closings = s.closings ++ [(t, .refused)]) (hnext : s'.nextTicket = s.nextTicket) :
    s.Turns [] s' := by
  have hsuccesses : s'.successes = s.successes := by
    unfold successes
    rw [hclosings, List.filter_append]
    exact List.append_nil _
  refine ⟨fun h => ?_, fun h => hstage ▸ h, fun h => hstage ▸ h, ?_, .inl ⟨rfl, Nat.le_of_eq hnext.symm⟩,
    .inl ?_, fun h hs => ?_⟩
  · rw [hstage, hworker]
    exact h
  · unfold Session.shutdowns
    rw [hclosings, List.map_append, List.append_nil, List.perm_iff_count]
    intro u
    have hcount := hperm.count_eq u
    simp only [List.map_cons, List.map_nil, List.count_append, List.count_cons, List.count_nil] at hcount ⊢
    omega
  · unfold Session.winners
    rw [hsuccesses, hperm.length_eq, List.length_cons]
    omega
  · rw [hsuccesses] at hs
    rw [hworker]
    exact h hs

/-- The worker refuses what is left in the queue. -/
theorem turns_refuseNext {s : Session J α} {c : Command J} {rest : List (Command J)}
    (hqueue : s.queue = c :: rest) : s.Turns [] { s.refuse c with queue := rest } := by
  cases c with
  | run t job =>
    refine turns_quiet (fun h => h) rfl (.of_eq ?_) rfl (Nat.le_refl _) fun h => h
    unfold shuttingDown
    rw [hqueue]
    rfl
  | shutdown t =>
    refine turns_refuses rfl rfl ?_ rfl rfl
    unfold shuttingDown
    rw [hqueue]
    exact List.perm_middle

/-! ## Moves -/

theorem turns_work? {duties : Duties W J α}
    (hduties : ∀ job w, Touch.Paired false (duties.perform job w).1.2) {s s' : Session J α} {w w' : W}
    (h : work? duties s w = some (s', w')) : s.Turns [] s' := by
  -- a worker that has ended makes no moves
  have hworks (hended : s.worker = .ended) : s'.worker = .ended := by
    unfold work? at h
    rw [hended] at h
    cases h
  rcases s with ⟨stage, queue, accepting, worker, calls, next, answers, closings⟩
  unfold work? at h
  cases worker with
  | starting =>
    dsimp only at h
    split at h
    · cases h
      exact turns_quiet (fun h => h) rfl (.refl _) rfl (Nat.le_refl _) hworks
    · cases h
      exact turns_rests (fun _ => rfl) (fun _ => rfl) (fun _ => rfl) (.refl _) rfl (Nat.le_refl _) hworks
  | waiting =>
    cases queue with
    | nil => cases h
    | cons c rest =>
      cases h
      cases c with
      | run t job => exact turns_quiet (fun h => h) rfl (.refl _) rfl (Nat.le_refl _) hworks
      | shutdown t =>
        -- the call goes from the queue into the worker's hands
        refine turns_quiet (fun h => h) rfl (.append_left _ ?_) rfl (Nat.le_refl _) hworks
        exact (List.perm_append_singleton _ _).trans (.of_eq (congrArg _ (List.append_nil _).symm))
  | holding c =>
    cases c with
    | run t job =>
      dsimp only at h
      split at h
      · cases h
        exact turns_quiet (fun h => h) rfl (.refl _) rfl (Nat.le_refl _) hworks
      · cases h
        exact turns_quiet (fun h => .start (hduties job w) h) rfl (.refl _) rfl (Nat.le_refl _) hworks
    | shutdown t =>
      cases h
      exact turns_quiet (fun h => h) rfl (.refl _) rfl (Nat.le_refl _) hworks
  | running t entered touches result =>
    cases touches with
    | nil =>
      cases h
      exact turns_quiet Touch.Standing.finish rfl (.refl _) rfl (Nat.le_refl _) hworks
    | cons touch touches =>
      cases h
      refine turns_rests Touch.Standing.apply (fun h => Touch.isClosing_apply h entered touch) ?_
        (.refl _) rfl (Nat.le_refl _) hworks
      rintro rfl
      exact Touch.apply_closed entered touch
  | closing t =>
    cases queue with
    | nil =>
      cases h
      exact turns_rests (fun _ => rfl) (fun _ => rfl) (fun _ => rfl) (.refl _) rfl (Nat.le_refl _) hworks
    | cons c rest =>
      cases h
      exact turns_refuseNext rfl
  | leaving t =>
    cases h
    -- the call that the worker has in its hands gets its answer
    have hsuccesses : (closings ++ [(t, Answer.done ())]).filter (fun closing => closing.2 = .done ()) =
        closings.filter (fun closing => closing.2 = .done ()) ++ [(t, .done ())] := List.filter_append ..
    refine ⟨fun h => h, fun h => h, fun h => h, ?_, .inl ⟨rfl, Nat.le_refl _⟩, .inl ?_, fun _ _ => rfl⟩
    · unfold Session.shutdowns shuttingDown
      rw [List.perm_iff_count]
      intro u
      simp only [answerClosing, Worker.shutdown?, Option.toList_none, Option.toList_some, List.map_append,
        List.map_cons, List.map_nil, List.count_append, List.count_nil]
      omega
    · unfold Session.winners successes shuttingDown answerClosing
      dsimp only
      rw [hsuccesses]
      simp only [Worker.shutdown?, Option.toList_none, Option.toList_some, List.length_append,
        List.length_cons, List.length_nil]
      omega
  | broken =>
    cases h
    exact turns_quiet (fun h => h) rfl (.refl _) rfl (Nat.le_refl _) hworks
  | abandoning =>
    cases queue with
    | nil =>
      cases h
      exact turns_quiet (fun h => h) rfl (.refl _) rfl (Nat.le_refl _) hworks
    | cons c rest =>
      cases h
      exact turns_refuseNext rfl
  | ended => cases h

theorem turns_beginSubmit (s : Session J α) (job : J) : s.Turns [] (s.beginSubmit job).2 := by
  refine turns_quiet (fun h => h) rfl (.of_eq ?_) rfl (Nat.le_succ _) fun h => h
  unfold shuttingDown beginSubmit
  dsimp only
  rw [List.filterMap_append]
  exact congrArg (· ++ _) (List.append_nil _)

theorem turns_beginShutdown (s : Session J α) : s.Turns [s.nextTicket] s.beginShutdown.2 := by
  unfold beginShutdown
  dsimp only
  split
  · -- the session is closing, and the call is refused
    have hsuccesses : (s.closings ++ [(s.nextTicket, Answer.refused)]).filter
        (fun closing => closing.2 = Answer.done ()) = s.successes := by
      rw [List.filter_append]
      exact List.append_nil _
    refine ⟨fun h => h, fun h => h, fun h => h, ?_, .inr ⟨rfl, rfl⟩, .inl ?_, fun h hs => ?_⟩
    · unfold Session.shutdowns
      rw [List.append_assoc]
      refine List.Perm.append_left _ (.of_eq ?_)
      exact List.map_append
    · exact Nat.le_of_eq (congrArg (s.shuttingDown.length + ·.length) hsuccesses)
    · exact h (hsuccesses ▸ hs)
  · rename_i hopen
    rw [Bool.not_eq_true] at hopen
    have hcalls : (s.calls ++ [Call.shutdown s.nextTicket]).filterMap Call.shutdown? =
        s.calls.filterMap Call.shutdown? ++ [s.nextTicket] := List.filterMap_append
    have hnever (h : s.stage = .closed) : False := by
      rw [h] at hopen
      cases hopen
    refine ⟨fun h => h.of_stage nofun fun hclosed => (hnever hclosed).elim, fun _ => rfl,
      fun h => (hnever h).elim, ?_, .inr ⟨rfl, rfl⟩, .inr ⟨?_, hopen, rfl⟩, fun h => h⟩
    · unfold Session.shutdowns shuttingDown
      dsimp only
      rw [hcalls, List.perm_iff_count]
      intro u
      simp only [List.count_append]
      omega
    · unfold Session.winners shuttingDown
      dsimp only
      rw [hcalls]
      simp only [List.length_append, List.length_singleton]
      change _ + s.successes.length = _
      omega

theorem turns_finishCall {s : Session J α} (hs : s.Numbered) (ticket : Ticket) :
    s.Turns [] (s.finishCall ticket) := by
  unfold finishCall
  cases hcall : s.calls.find? (·.ticket = ticket) with
  | none => exact turns_quiet (fun h => h) rfl (.refl _) rfl (Nat.le_refl _) fun h => h
  | some call =>
    obtain ⟨before, after, hcalls, hfilter⟩ := hs.find? hcall
    dsimp only
    rw [hfilter]
    -- the call is not among the calls of clients any more
    have hgone : s.shuttingDown.Perm
        (call.shutdown?.toList ++ ({ s with calls := before ++ after } : Session J α).shuttingDown) := by
      unfold shuttingDown
      rw [hcalls]
      simp only [List.filterMap_append, List.filterMap_cons]
      cases call.shutdown? with
      | none => exact .refl _
      | some t =>
        simp only [List.append_assoc, List.cons_append, Option.toList_some, List.nil_append]
        exact List.perm_middle
    cases call with
    | submit t job closing =>
      cases closing with
      | true => exact turns_quiet (fun h => h) rfl hgone.symm rfl (Nat.le_refl _) fun h => h
      | false =>
        unfold send
        dsimp only
        split
        · refine turns_quiet (fun h => h) rfl (.trans (.of_eq ?_) hgone.symm) rfl
            (Nat.le_refl _) fun h => h
          simp [shuttingDown, Command.shutdown?, Call.shutdown?]
        · exact turns_quiet (fun h => h) rfl hgone.symm rfl (Nat.le_refl _) fun h => h
    | shutdown t =>
      unfold send
      dsimp only
      split
      · refine turns_quiet (fun h => h) rfl (.trans ?_ hgone.symm) rfl
          (Nat.le_refl _) fun h => h
        unfold shuttingDown
        rw [List.perm_iff_count]
        intro u
        simp [Command.shutdown?, Call.shutdown?, List.count_cons]
        omega
      · exact turns_refuses rfl rfl hgone rfl rfl

/-- The call to shut down that a move changes the stage for, or refuses. -/
def newShutdown (s : Session J α) : Move J → List Ticket
  | .shutdown => [s.nextTicket]
  | _ => []

/-- What a move does, if evaluations begin and end one after the other in every job. -/
theorem turns_step {duties : Duties W J α}
    (hduties : ∀ job w, Touch.Paired false (duties.perform job w).1.2) {s : Session J α}
    (hs : s.Numbered) (w : W) (move : Move J) :
    s.Turns (s.newShutdown move) (s.step duties w move).1 := by
  cases move with
  | submit job => exact s.turns_beginSubmit job
  | shutdown => exact s.turns_beginShutdown
  | finish ticket => exact turns_finishCall hs ticket
  | work =>
    unfold step
    dsimp only
    cases hwork : work? duties s w with
    | none =>
      exact turns_quiet (fun h => h) rfl (.refl _) rfl (Nat.le_refl _) fun h => h
    | some after => exact turns_work? hduties hwork

/-! ## The loop that begins to shut a session down -/

/-- One round of the loop in which a client changes the stage, if `seen` is the stage where the client has
looked at it. The call is refused if the session was closing then. Otherwise the stage changes if it is
still the same, and if it is not, the client has another look. -/
def tryShutdown (s : Session J α) (seen : Stage) : Option Stage × Session J α :=
  let ticket := s.nextTicket
  if seen.isClosing then
    (none, { s with nextTicket := ticket + 1 }.answerClosing ticket .refused)
  else if s.stage = seen then
    (none, { s with
      nextTicket := ticket + 1
      stage := .shuttingDown
      calls := s.calls ++ [.shutdown ticket] })
  else (some s.stage, s)

/-- A round of the loop ends it with the first step of the call, or it changes nothing. -/
theorem tryShutdown_eq {s : Session J α} {seen : Stage}
    (hseen : seen.isClosing = true → s.stage.isClosing = true) :
    s.tryShutdown seen = (none, s.beginShutdown.2) ∨ s.tryShutdown seen = (some s.stage, s) := by
  unfold tryShutdown beginShutdown
  dsimp only
  split
  · rename_i hclosing
    rw [if_pos (hseen hclosing)]
    exact .inl rfl
  · rename_i hopen
    split
    · rename_i hstage
      rw [hstage, if_neg hopen]
      exact .inl rfl
    · exact .inr rfl

/-- A client whom nobody gets in the way of needs one round. -/
theorem tryShutdown_stage (s : Session J α) : s.tryShutdown s.stage = (none, s.beginShutdown.2) := by
  have hclosing (h : s.stage.isClosing = true) : s.stage.isClosing = true := h
  rcases tryShutdown_eq hclosing with h | h
  · exact h
  · unfold tryShutdown at h
    dsimp only at h
    rw [if_pos rfl] at h
    split at h <;> cases h

/-! ## What holds from the beginning on -/

/-- What holds of a session from its beginning on. -/
structure Orderly (s : Session J α) : Prop where
  numbered : s.Numbered
  drained : s.Closed
  allows : s.worker.Allows s.stage
  /-- Calls to shut the session down have numbers of their own. -/
  fresh : ∀ t ∈ s.shutdowns, t < s.nextTicket
  distinct : s.shutdowns.Nodup
  /-- At most one call has shut the session down, or is about to do so, and the session is closing then. -/
  winner : s.winners ≤ 1
  closing : 0 < s.winners → s.stage.isClosing = true
  ended : s.successes ≠ [] → s.worker = .ended

theorem orderly_empty : ({} : Session J α).Orderly := by
  obtain ⟨hnumbered, hclosed, -, -⟩ := accounted_empty (J := J) (α := α)
  refine ⟨hnumbered, hclosed, nofun, nofun, List.nodup_nil, Nat.zero_le 1, fun h => ?_, ?_⟩
  · exact absurd h (Nat.lt_irrefl 0)
  · exact fun h => absurd rfl h

theorem Orderly.turns {s s' : Session J α} {incidents : List (Incident J α)} {new : List Ticket}
    (h : s.Orderly) (hgoes : s.Goes incidents s') (hturns : s.Turns new s') : s'.Orderly := by
  have hperm := hturns.shutdowns
  have hnew := hturns.numbers
  refine ⟨hgoes.numbered h.numbered, hgoes.closed h.drained, hturns.allows h.allows, fun t ht => ?_, ?_, ?_,
    fun hwon => ?_, hturns.ended h.ended⟩
  · rcases List.mem_append.1 (hperm.mem_iff.1 ht) with hold | ht
    · refine Nat.lt_of_lt_of_le (h.fresh t hold) ?_
      rcases hnew with ⟨-, hnext⟩ | ⟨-, hnext⟩
      · exact hnext
      · exact Nat.le_of_lt (hnext ▸ Nat.lt_succ_self _)
    · rcases hnew with ⟨rfl, -⟩ | ⟨rfl, hnext⟩
      · cases ht
      · rw [List.mem_singleton.1 ht, hnext]
        exact Nat.lt_succ_self _
  · refine hperm.nodup_iff.2 ?_
    rcases hnew with ⟨rfl, -⟩ | ⟨rfl, -⟩
    · rw [List.append_nil]
      exact h.distinct
    · refine h.distinct.append (List.nodup_singleton _) ?_
      rw [List.disjoint_singleton]
      exact fun hmem => Nat.lt_irrefl _ (h.fresh _ hmem)
  · -- nobody can have won before in a session that was open
    rcases hturns.winners with hle | ⟨heq, hopen, -⟩
    · exact Nat.le_trans hle h.winner
    · have hzero : s.winners = 0 := by
        by_contra hne
        have hclosing := h.closing (Nat.pos_of_ne_zero hne)
        rw [hopen] at hclosing
        cases hclosing
      omega
  · rcases hturns.winners with hle | ⟨-, -, hclosing⟩
    · exact hturns.closing (h.closing (Nat.lt_of_lt_of_le hwon hle))
    · exact hclosing

theorem Orderly.step {duties : Duties W J α}
    (hduties : ∀ job w, Touch.Paired false (duties.perform job w).1.2) {s : Session J α}
    (h : s.Orderly) (w : W) (move : Move J) : (s.step duties w move).1.Orderly :=
  h.turns (goes_step duties h.numbered w move) (turns_step hduties h.numbered w move)

end Session

end Notebook
