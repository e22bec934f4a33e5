import Qanat.Bus.FanoutStream

/-
  A queue group receives a message exactly if the consumer
  that the round robin picks still listens.  The pick is made
  before the closed streams are known.

  Main declarations:
    * `LocalRouter.State.Receives`
    * `LocalRouter.ServesGroups`, `LocalRouter.PicksOpen`
    * `LocalRouter.groups_served_iff_picks_open`
-/

------------------------------------------------------------
-- Queue Groups
------------------------------------------------------------

namespace Qanat

namespace Bus

namespace LocalRouter

open Transition

variable {M : Type}

/- The open stream of the consumer is sent the message. -/
def State.Receives
    (s s' : State M) (id : ConsumerId) (message : M) : Prop :=
  ∃ channel queue, s.senders.lookup id = some channel ∧
    s.channels[channel]? = some ⟨true, queue⟩ ∧
    s'.channels[channel]? = some ⟨true, queue ++ [message]⟩

/- The binding is a queue group with an open consumer. -/
def State.Awaits
    (s : State M) (subject : String) (b : Binding) : Prop :=
  b ∈ s.router.bindings ∧ b.queue.isSome ∧
    wildcardMatch b.subjectPattern subject = true ∧
    ∃ id ∈ b.consumers, s.IsOpen id

/- Each such group receives the message in one consumer. -/
def ServesGroups
    (s s' : State M) (subject : String) (message : M) :
    Prop :=
  ∀ b, s.Awaits subject b →
    ∃! id, id ∈ b.consumers ∧ s.Receives s' id message

/- The round robin of each such group picks an open stream. -/
def PicksOpen (s : State M) (subject : String) : Prop :=
  ∀ b, s.Awaits subject b →
    ∃ id, b.picked? = some id ∧ s.IsOpen id

/- A member of a group receives what it is picked for. -/
theorem receives_iff
    {s s' : State M} {subject : String} {message : M}
    {b : Binding} {id : ConsumerId}
    (hCons : Consistent s)
    (hDispatched :
      Dispatched s subject message s' (.ok ()))
    (hBinding : b ∈ s.router.bindings)
    (hQueue : b.queue.isSome)
    (hMatch : wildcardMatch b.subjectPattern subject = true)
    (hMem : id ∈ b.consumers) :
    s.Receives s' id message ↔
      b.picked? = some id ∧ s.IsOpen id := by
  have hGroup : b.queue ≠ none :=
    Option.isSome_iff_ne_none.mp hQueue
  have hTarget :
      id ∈ (s.router.route subject).2 ↔
        b.picked? = some id := by
    rw [hCons.table.mem_route_iff hBinding hMem,
      Binding.mem_route_iff]
    simp [hMatch, hGroup, hQueue]
  constructor
  · rintro ⟨channel, queue, hSender, hOpen, hSent⟩
    refine ⟨?_, channel, queue, hSender, hOpen⟩
    rw [← hTarget,
      ← hCons.mem_recipients_iff hSender hOpen]
    by_contra hNot
    rw [hDispatched.sent, hOpen, Option.map_some,
      if_neg hNot] at hSent
    simp at hSent
  · rintro ⟨hPicked, channel, queue, hSender, hOpen⟩
    refine ⟨channel, queue, hSender, hOpen, ?_⟩
    have hRecipient :=
      (hCons.mem_recipients_iff hSender hOpen subject).mpr
        (hTarget.mpr hPicked)
    rw [hDispatched.sent, hOpen, Option.map_some,
      if_pos hRecipient]

/-
  A dispatch that returns `Ok` is received by one open
  consumer of every matching group that has one, if and only
  if the round robin picks an open consumer for each of them.
-/
theorem groups_served_iff_picks_open
    {trace : List (Event M)} {s s' : State M}
    {subject : String} {message : M}
    (hReach : (lts M).Reachable trace s)
    (hStep : Step s (.dispatched subject message (.ok ())) s') :
    ServesGroups s s' subject message ↔ PicksOpen s subject := by
  have hCons := consistent_of_reachable hReach
  have hDispatched := hCons.dispatched hStep
  constructor
  · intro hServes b hAwaits
    rcases hServes b hAwaits with ⟨id, ⟨hMem, hReceives⟩, _⟩
    rcases hAwaits with ⟨hBinding, hQueue, hMatch, _⟩
    exact ⟨id, (receives_iff hCons hDispatched hBinding hQueue
      hMatch hMem).mp hReceives⟩
  · intro hPicks b hAwaits
    rcases hPicks b hAwaits with ⟨id, hPicked, hOpen⟩
    rcases hAwaits with ⟨hBinding, hQueue, hMatch, _⟩
    have hMem : id ∈ b.consumers :=
      List.mem_of_getElem? hPicked
    refine ⟨id, ⟨hMem, (receives_iff hCons hDispatched
      hBinding hQueue hMatch hMem).mpr ⟨hPicked, hOpen⟩⟩, ?_⟩
    rintro id' ⟨hMem', hReceives⟩
    have hPicked' := ((receives_iff hCons hDispatched hBinding
      hQueue hMatch hMem').mp hReceives).1
    rw [hPicked] at hPicked'
    exact (Option.some.inj hPicked').symm

/- Two workers of one group with streams as given. -/
def workersState (first second : Channel Nat) : State Nat where
  router :=
    { bindings :=
        [{ subjectPattern := "jobs.*"
           queue := some "workers"
           consumers := [1, 2]
           rrIndex := 0 }]
      nextId := 3 }
  senders :=
    ((∅ : AList (fun _ : ConsumerId => ChannelId)).insert 1
      0).insert 2 1
  channels := [first, second]

theorem workers_reachable :
    (lts Nat).Reachable
      [.groupSubscribed "jobs.*" "workers" 0,
        .groupSubscribed "jobs.*" "workers" 1]
      (workersState Channel.new Channel.new) := by
  have hStart :
      (lts Nat).Reachable [] (State.start : State Nat) :=
    Lts.Reachable.initial rfl
  have hFirst := hStart.step
    (@Step.subscribeGroup Nat _ "jobs.*" "workers" 1 rfl)
  exact hFirst.step
    (@Step.subscribeGroup Nat _ "jobs.*" "workers" 2 rfl)

/- A job for a group whose first worker has gone is lost. -/
theorem job_lost_with_closed_worker :
    ∃ trace s s',
      (lts Nat).Reachable trace s ∧
        Step s (.dispatched "jobs.a" 7 (.ok ())) s' ∧
        s.IsOpen 2 ∧ s'.channels[1]? = some ⟨true, []⟩ ∧
        ¬ ServesGroups s s' "jobs.a" 7 := by
  have hDropped := workers_reachable.step
    (@Step.drop Nat _ 0 [] rfl)
  have hStep :
      Step (workersState ⟨false, []⟩ Channel.new)
        (.dispatched "jobs.a" 7 (.ok ()))
        (dispatch (workersState ⟨false, []⟩ Channel.new)
          "jobs.a" 7).1 :=
    Step.dispatch
  have hOpen :
      (workersState ⟨false, []⟩ Channel.new).IsOpen 2 :=
    ⟨1, [], rfl, rfl⟩
  refine ⟨_, _, _, hDropped, hStep, hOpen, rfl, ?_⟩
  intro hServes
  rcases hServes _ ⟨List.mem_singleton_self _, rfl, by decide,
    2, by decide, hOpen⟩ with
    ⟨id, ⟨hMem, channel, queue, hSender, hBefore, hAfter⟩, _⟩
  have hCases : id = 1 ∨ id = 2 := by simpa using hMem
  rcases hCases with rfl | rfl
  · cases hSender
    cases hBefore
  · cases hSender
    cases hBefore
    cases hAfter

/- With both workers there, the first one gets the job. -/
theorem groups_served_iff_picks_open_workers :
    ∃ s',
      ServesGroups (workersState Channel.new Channel.new) s'
        "jobs.a" 7 := by
  have hStep :
      Step (workersState Channel.new Channel.new)
        (.dispatched "jobs.a" 7 (.ok ()))
        (dispatch (workersState Channel.new Channel.new)
          "jobs.a" 7).1 :=
    Step.dispatch
  refine ⟨_, (groups_served_iff_picks_open workers_reachable
    hStep).mpr ?_⟩
  rintro b ⟨hBinding, _⟩
  rw [List.mem_singleton.mp hBinding]
  exact ⟨1, rfl, 0, [], rfl, rfl⟩

end LocalRouter

end Bus

end Qanat
