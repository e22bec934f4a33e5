import Qanat.Bus.FanoutStream
import Qanat.Bus.RoundRobin

/-
  What a dispatch that is refused for want of room leaves
  behind.

  Nothing is sent, but the message has been routed: the
  groups that it matches have taken their turns.

  Main declarations:
    * `Binding.moveOn`
    * `LocalRouter.group?_removeConsumers`
    * `LocalRouter.Consistent.refused`
    * `LocalRouter.refused_dispatch_moves_groups_on`
-/

------------------------------------------------------------
-- Moving On
------------------------------------------------------------

namespace Qanat

namespace Bus

/-
  A queue group that a subject matches goes on to its next
  consumer, if it has any.
-/
def Binding.moveOn (subject : String) (b : Binding) :
    Binding :=
  if wildcardMatch b.subjectPattern subject &&
      b.queue.isSome && !b.consumers.isEmpty then
    { b with rrIndex := b.rrIndex + 1 }
  else
    b

theorem Binding.route_eq_moveOn
    (b : Binding) (subject : String) :
    (b.route subject).1 = b.moveOn subject := by
  unfold route moveOn
  by_cases hMatch :
      wildcardMatch b.subjectPattern subject = true
  · cases hQueue : b.queue with
    | none => simp [hMatch]
    | some queue =>
        by_cases hEmpty : b.consumers.isEmpty = true
        · simp [hMatch, hEmpty]
        · simp [hMatch, hEmpty]
  · simp [hMatch]

/- The table after a subject has been routed. -/
def SubjectRouter.moveOn
    (router : SubjectRouter) (subject : String) :
    SubjectRouter :=
  { router with
    bindings :=
      router.bindings.map (Binding.moveOn subject) }

theorem SubjectRouter.route_eq_moveOn
    (router : SubjectRouter) (subject : String) :
    (router.route subject).1 = router.moveOn subject := by
  unfold SubjectRouter.route SubjectRouter.moveOn
  simp only [Binding.route_eq_moveOn]

theorem SubjectRouter.group?_moveOn
    (router : SubjectRouter) (queue subject : String) :
    (router.moveOn subject).group? queue =
      (router.group? queue).map (Binding.moveOn subject) := by
  rw [← SubjectRouter.route_eq_moveOn,
    SubjectRouter.group?_route]
  simp only [Binding.route_eq_moveOn]

end Bus

end Qanat

------------------------------------------------------------
-- Refused Dispatches
------------------------------------------------------------

namespace Qanat

namespace Bus

namespace LocalRouter

open Transition

variable {M : Type}

/- A group without the consumers that are removed. -/
theorem group?_removeConsumers
    (s : State M) (dead : List ConsumerId)
    (queue : String) :
    (removeConsumers s dead).router.group? queue =
      (s.router.group? queue).map (fun b =>
        { b with
          consumers :=
            b.consumers.filter (fun c => c ∉ dead) }) := by
  induction dead generalizing s with
  | nil =>
      have hNil : removeConsumers s [] = s := rfl
      rw [hNil]
      simp
  | cons first rest ih =>
      have hNext : removeConsumers s (first :: rest) =
          removeConsumers (s.remove first) rest := rfl
      have hRemoved :=
        SubjectRouter.group?_removeConsumer s.router queue
          first
      rw [hNext, ih]
      unfold State.remove
      rw [hRemoved, Option.map_map]
      congr 1
      funext b
      simp only [Function.comp_apply, List.filter_filter]
      congr 2
      funext c
      simp [Bool.and_comm]

/- What a dispatch that is refused does, and why. -/
theorem Consistent.refused
    {s : State M} {subject : String} {message : M}
    {error : BusError}
    (hCons : Consistent s)
    (hRefused :
      (dispatch s subject message).2 = .error error) :
    (∃ id ∈ (s.router.route subject).2, ∃ channel,
      s.senders.lookup id = some channel ∧
        Crowded s.channels channel) ∧
      ∃ dead, (∀ id ∈ dead, ¬ s.IsOpen id) ∧
        (dispatch s subject message).1 =
          removeConsumers
            { s with router := s.router.moveOn subject }
            dead := by
  constructor
  · have hFull : ¬ s.Accepts subject := by
      rw [← hCons.dispatch_ok_iff subject message, hRefused]
      nofun
    unfold State.Accepts at hFull
    push Not at hFull
    exact hFull
  · have hLoop := @reserve_spec M s.senders s.channels
      (s.router.route subject).2 [] []
    unfold dispatch at hRefused ⊢
    cases hReserve : reserve s.senders s.channels
        (s.router.route subject).2 [] [] with
    | reserved permits dead =>
        simp [hReserve] at hRefused
    | full dead =>
        rw [hReserve] at hLoop
        simp only [hReserve]
        refine ⟨dead, ?_, ?_⟩
        · rintro id hMem ⟨channel, queue, hSender, hOpen⟩
          rcases hLoop id hMem with hNil | hNone
          · cases hNil
          · rw [liveChannel?_eq_some_iff.mpr
              ⟨hSender, queue, hOpen⟩] at hNone
            cases hNone
        · rw [SubjectRouter.route_eq_moveOn]

/-
  A group with members left has moved on from where it would
  be if only the others had been removed.
-/
theorem group?_of_refused
    {s : State M} {dead : List ConsumerId}
    {subject queue : String} {b : Binding}
    (hGroup :
      (removeConsumers s dead).router.group? queue = some b)
    (hMembers : b.consumers ≠ []) :
    (removeConsumers
        { s with router := s.router.moveOn subject }
        dead).router.group? queue =
      some (b.moveOn subject) := by
  rw [group?_removeConsumers] at hGroup ⊢
  rcases Option.map_eq_some_iff.mp hGroup with
    ⟨before, hBefore, rfl⟩
  rw [SubjectRouter.group?_moveOn, hBefore]
  have hNonempty : before.consumers ≠ [] := by
    intro hNil
    apply hMembers
    simp [hNil]
  simp only [Option.map_some, Option.some.injEq]
  unfold Binding.moveOn
  have hBoth :
      before.consumers.isEmpty =
        (before.consumers.filter
          (fun c => c ∉ dead)).isEmpty := by
    rw [Bool.eq_iff_iff]
    simp only [List.isEmpty_iff]
    exact iff_of_false hNonempty hMembers
  simp only [hBoth]
  split <;> rfl

/-
  A refused dispatch queues nothing and removes closed
  consumers only, but each group that the subject matches has
  given its turn to the next of the members that are left.
-/
theorem refused_dispatch_moves_groups_on
    {trace : List (Event M)} {s s' : State M}
    {subject reason : String} {message : M}
    (hReach : (lts M).Reachable trace s)
    (hStep :
      Step s
        (.dispatched subject message
          (.error (.backpressure reason))) s') :
    (∃ b ∈ s.router.bindings,
      wildcardMatch b.subjectPattern subject = true ∧
        ∃ id ∈ b.consumers, ∃ channel,
          s.senders.lookup id = some channel ∧
            Crowded s.channels channel) ∧
      s'.channels = s.channels ∧
      ∃ dead, (∀ id ∈ dead, ¬ s.IsOpen id) ∧
        s' =
          removeConsumers
            { s with router := s.router.moveOn subject }
            dead ∧
        ∀ queue b,
          (removeConsumers s dead).router.group? queue =
              some b →
            b.consumers ≠ [] →
              ∃ b', s'.router.group? queue = some b' ∧
                b'.subjectPattern = b.subjectPattern ∧
                b'.consumers = b.consumers ∧
                b'.picked? =
                  if wildcardMatch b.subjectPattern subject
                  then
                    Rotation.turn? b.consumers (b.rrIndex + 1)
                  else
                    b.picked? := by
  have hCons := consistent_of_reachable hReach
  rcases hStep.of_dispatched with ⟨hResult, rfl⟩
  rcases hCons.refused hResult.symm with
    ⟨⟨id, hTarget, channel, hSender, hCrowded⟩,
      dead, hClosed, hState⟩
  refine ⟨?_, ?_, dead, hClosed, hState, ?_⟩
  · rcases List.mem_flatMap.mp hTarget with
      ⟨b, hBinding, hHere⟩
    exact ⟨b, hBinding, (Binding.mem_route_iff.mp hHere).1,
      id, (b.route_sublist subject).subset hHere, channel,
      hSender, hCrowded⟩
  · rw [hState, removeConsumers_channels]
  · intro queue b hGroup hMembers
    rw [hState]
    have hQueue : b.queue.isSome = true := by
      rw [(SubjectRouter.mem_of_group? hGroup).2]
      rfl
    refine ⟨_, group?_of_refused hGroup hMembers, ?_⟩
    unfold Binding.moveOn
    cases hMatch : wildcardMatch b.subjectPattern subject with
    | false => simp
    | true =>
        have hSome : b.consumers.isEmpty = false := by
          rwa [List.isEmpty_eq_false_iff]
        simp [hQueue, hSome, Binding.picked?, Rotation.turn?]

end LocalRouter

end Bus

end Qanat

------------------------------------------------------------
-- A Refused Job
------------------------------------------------------------

namespace Qanat

namespace Bus

namespace LocalRouter

open Transition

/- One fanout subscriber to all jobs. -/
def auditState (queue : List Nat) : State Nat where
  router :=
    { bindings :=
        [{ subjectPattern := "jobs.*"
           queue := none
           consumers := [1]
           rrIndex := 0 }]
      nextId := 2 }
  senders :=
    (∅ : AList (fun _ : ConsumerId => ChannelId)).insert 1 0
  channels := [⟨true, queue⟩]

/- A group of two workers beside it. -/
def auditedState (rrIndex : Nat) (queue : List Nat) :
    State Nat where
  router :=
    { bindings :=
        [{ subjectPattern := "jobs.*"
           queue := none
           consumers := [1]
           rrIndex := 0 },
         { subjectPattern := "jobs.*"
           queue := some "workers"
           consumers := [2, 3]
           rrIndex := rrIndex }]
      nextId := 4 }
  senders :=
    (((∅ : AList (fun _ : ConsumerId => ChannelId)).insert 1
      0).insert 2 1).insert 3 2
  channels := [⟨true, queue⟩, Channel.new, Channel.new]

theorem dispatch_audit
    {queue : List Nat}
    (hRoom : queue.length < subscriptionBuffer) (job : Nat) :
    dispatch (auditState queue) "jobs.a" job =
      (auditState (queue ++ [job]), .ok ()) := by
  have hRoute :
      (auditState queue).router.route "jobs.a" =
        ((auditState queue).router, [1]) := rfl
  have hSender :
      (auditState queue).senders.lookup 1 = some 0 := rfl
  have hPermit :
      tryReserve (auditState queue).channels [] 0 =
        .permit := if_pos hRoom
  have hReserve :
      reserve (auditState queue).senders
          (auditState queue).channels [1] [] [] =
        .reserved [0] [] := by
    simp only [reserve, hSender, hPermit, List.nil_append]
  unfold dispatch
  rw [hRoute]
  simp only [hReserve]
  rfl

/- The subscriber of all jobs reads none of them. -/
theorem audit_reachable
    (n : Nat) (hBound : n ≤ subscriptionBuffer) :
    ∃ trace queue, (lts Nat).Reachable trace
        (auditState queue) ∧ queue.length = n := by
  induction n with
  | zero =>
      have hStart :
          (lts Nat).Reachable [] (State.start : State Nat) :=
        Lts.Reachable.initial rfl
      exact ⟨_, [], hStart.step
        (@Step.subscribe Nat _ "jobs.*"), rfl⟩
  | succ n ih =>
      rcases ih (Nat.le_of_succ_le hBound) with
        ⟨trace, queue, hReach, hLength⟩
      have hRoom : queue.length < subscriptionBuffer := by
        rw [hLength]
        exact hBound
      have hNext := hReach.step
        (@Step.dispatch Nat (auditState queue) "jobs.a" 0)
      rw [dispatch_audit hRoom] at hNext
      exact ⟨_, queue ++ [0], hNext, by simp [hLength]⟩

/- With its queue full, a group is started. -/
theorem audited_reachable :
    ∃ trace queue, (lts Nat).Reachable trace
        (auditedState 0 queue) ∧
      subscriptionBuffer ≤ queue.length := by
  rcases audit_reachable subscriptionBuffer (Nat.le_refl _)
    with ⟨trace, queue, hReach, hLength⟩
  have hFirst := hReach.step
    (@Step.subscribeGroup Nat _ "jobs.*" "workers" 2 rfl)
  have hSecond := hFirst.step
    (@Step.subscribeGroup Nat _ "jobs.*" "workers" 3 rfl)
  exact ⟨_, queue, hSecond, hLength.ge⟩

/- A job is refused, and yet it was the turn of worker 2. -/
theorem job_refused
    {queue : List Nat}
    (hFull : subscriptionBuffer ≤ queue.length) :
    ∃ reason,
      Step (auditedState 0 queue)
        (.dispatched "jobs.a" 7
          (.error (.backpressure reason)))
        (auditedState 1 queue) := by
  have hRoute :
      (auditedState 0 queue).router.route "jobs.a" =
        ((auditedState 1 queue).router, [1, 2]) := rfl
  have hSender :
      (auditedState 0 queue).senders.lookup 1 = some 0 := rfl
  have hNoRoom :
      tryReserve (auditedState 0 queue).channels [] 0 =
        .full := if_neg (Nat.not_lt.mpr hFull)
  have hReserve :
      reserve (auditedState 0 queue).senders
          (auditedState 0 queue).channels [1, 2] [] [] =
        .full [] := by
    simp only [reserve, hSender, hNoRoom]
  have hDispatch :
      dispatch (auditedState 0 queue) "jobs.a" 7 =
        (auditedState 1 queue,
          .error (.backpressure
            ("subscriber queue is full for subject '" ++
              "jobs.a" ++ "'"))) := by
    unfold dispatch
    rw [hRoute]
    simp only [hReserve]
    rfl
  have hStep := @Step.dispatch Nat (auditedState 0 queue)
    "jobs.a" 7
  rw [hDispatch] at hStep
  exact ⟨_, hStep⟩

/-
  No consumer has been closed, but the next job goes to
  another worker than it would have without the refused one.
-/
theorem refused_job_skips_worker :
    ∃ trace s s' reason,
      (lts Nat).Reachable trace s ∧
        Step s
          (.dispatched "jobs.a" 7
            (.error (.backpressure reason))) s' ∧
        (¬ ∃ dead, (∀ id ∈ dead, ¬ s.IsOpen id) ∧
          s' = removeConsumers s dead) ∧
        (s.router.group? "workers").bind Binding.picked? =
          some 2 ∧
        (s'.router.group? "workers").bind Binding.picked? =
          some 3 := by
  rcases audited_reachable with ⟨trace, queue, hReach, hFull⟩
  rcases job_refused hFull with ⟨reason, hStep⟩
  refine ⟨trace, _, _, reason, hReach, hStep, ?_, rfl, rfl⟩
  rintro ⟨dead, _, hState⟩
  have hGroup :=
    group?_removeConsumers (auditedState 0 queue) dead
      "workers"
  rw [← hState] at hGroup
  have hIndex : some 1 = some 0 :=
    congrArg (Option.map Binding.rrIndex) hGroup
  cases hIndex

theorem refused_dispatch_moves_groups_on_audited :
    ∃ s s' : State Nat, s'.channels = s.channels ∧
      ∃ dead, (∀ id ∈ dead, ¬ s.IsOpen id) ∧
        s' =
          removeConsumers
            { s with router := s.router.moveOn "jobs.a" }
            dead := by
  rcases audited_reachable with ⟨trace, queue, hReach, hFull⟩
  rcases job_refused hFull with ⟨reason, hStep⟩
  rcases refused_dispatch_moves_groups_on hReach hStep with
    ⟨_, hChannels, dead, hClosed, hState, _⟩
  exact ⟨_, _, hChannels, dead, hClosed, hState⟩

end LocalRouter

end Bus

end Qanat
