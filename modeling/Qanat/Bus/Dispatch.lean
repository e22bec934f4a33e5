import Qanat.Bus.InternalRouter
import Qanat.Bus.RoutingTable

/-
  The routing table and the senders of the actor stay in
  step, and what a dispatch does to the channels.

  Main declarations:
    * `LocalRouter.Consistent`
    * `LocalRouter.recipients`
    * `LocalRouter.Consistent.dispatch_spec`
    * `LocalRouter.consistent_of_reachable`
    * `LocalRouter.table_and_senders_sound`
    * `LocalRouter.counters_in_range`
-/

------------------------------------------------------------
-- Consistent States
------------------------------------------------------------

namespace Qanat

namespace Bus

namespace LocalRouter

variable {M : Type}

/- The senders are those of the consumers in the table. -/
structure Consistent (s : State M) : Prop where
  table : s.router.Valid
  senders_iff :
    ∀ id, id ∈ s.senders ↔ id ∈ s.router.consumers
  sender_lt :
    ∀ id channel, s.senders.lookup id = some channel →
      channel < s.channels.length
  sender_unique :
    ∀ id id' channel, s.senders.lookup id = some channel →
      s.senders.lookup id' = some channel → id = id'

/- The stream of the consumer has not been dropped. -/
def State.IsOpen (s : State M) (id : ConsumerId) : Prop :=
  ∃ channel queue, s.senders.lookup id = some channel ∧
    s.channels[channel]? = some ⟨true, queue⟩

theorem Consistent.start :
    Consistent (State.start : State M) := by
  refine ⟨SubjectRouter.Valid.new, ?_, ?_, ?_⟩
  · intro id
    simp [State.start, SubjectRouter.new,
      SubjectRouter.consumers]
  · intro id channel hSender
    simp [State.start] at hSender
  · intro id id' channel hSender
    simp [State.start] at hSender

/- Senders are there for all targets of a subject. -/
theorem Consistent.sender_of_target
    {s : State M} {subject : String} {id : ConsumerId}
    (hCons : Consistent s)
    (hTarget : id ∈ (s.router.route subject).2) :
    ∃ channel, s.senders.lookup id = some channel := by
  have hMem := (s.router.route_sublist subject).subset hTarget
  rw [← hCons.senders_iff,
    ← AList.lookup_isSome] at hMem
  exact Option.isSome_iff_exists.mp hMem

/- The table of a consistent state may be seen otherwise. -/
theorem Consistent.withRouter
    {s : State M} {router : SubjectRouter}
    (hCons : Consistent s)
    (hValid : router.Valid)
    (hSame :
      ∀ id label, router.Subscribed id label ↔
        s.router.Subscribed id label) :
    Consistent { s with router := router } where
  table := hValid
  senders_iff := by
    intro id
    rw [hCons.senders_iff, SubjectRouter.mem_consumers_iff,
      SubjectRouter.mem_consumers_iff]
    simp only [hSame]
  sender_lt := hCons.sender_lt
  sender_unique := hCons.sender_unique

/- Channels may change as long as they stay. -/
theorem Consistent.withChannels
    {s : State M} {channels : List (Channel M)}
    (hCons : Consistent s)
    (hLength : channels.length = s.channels.length) :
    Consistent { s with channels := channels } where
  table := hCons.table
  senders_iff := hCons.senders_iff
  sender_lt := by
    intro id channel hSender
    rw [hLength]
    exact hCons.sender_lt id channel hSender
  sender_unique := hCons.sender_unique

/- A new consumer gets a new channel. -/
theorem Consistent.subscribe
    {s : State M} {router : SubjectRouter}
    {id : ConsumerId} {label : Label}
    (hCons : Consistent s)
    (hValid : router.Valid)
    (hFresh : id ∉ s.router.consumers)
    (hJoined :
      ∀ c l, router.Subscribed c l ↔
        s.router.Subscribed c l ∨ c = id ∧ l = label) :
    Consistent (s.subscribe router id) where
  table := hValid
  senders_iff := by
    intro c
    unfold State.subscribe
    rw [AList.mem_insert, hCons.senders_iff,
      SubjectRouter.mem_consumers_iff,
      SubjectRouter.mem_consumers_iff]
    simp only [hJoined]
    constructor
    · rintro (rfl | ⟨l, hOld⟩)
      · exact ⟨label, Or.inr ⟨rfl, rfl⟩⟩
      · exact ⟨l, Or.inl hOld⟩
    · rintro ⟨l, hOld | ⟨rfl, _⟩⟩
      · exact Or.inr ⟨l, hOld⟩
      · exact Or.inl rfl
  sender_lt := by
    intro c channel hSender
    unfold State.subscribe at hSender ⊢
    rw [List.length_append, List.length_singleton]
    by_cases hEq : c = id
    · subst hEq
      rw [AList.lookup_insert] at hSender
      cases hSender
      exact Nat.lt_succ_self _
    · rw [AList.lookup_insert_ne hEq] at hSender
      exact Nat.lt_succ_of_lt
        (hCons.sender_lt c channel hSender)
  sender_unique := by
    have hOld :
        ∀ c, c ≠ id →
          (s.senders.insert id s.channels.length).lookup c ≠
            some s.channels.length := by
      intro c hNe hSender
      rw [AList.lookup_insert_ne hNe] at hSender
      exact Nat.lt_irrefl _ (hCons.sender_lt c _ hSender)
    intro c d channel hSender hSender'
    unfold State.subscribe at hSender hSender'
    by_cases hC : c = id
    · subst hC
      rw [AList.lookup_insert] at hSender
      cases hSender
      by_contra hNe
      exact hOld d (Ne.symm hNe) hSender'
    · by_cases hD : d = id
      · subst hD
        rw [AList.lookup_insert] at hSender'
        cases hSender'
        exact absurd hSender (hOld c hC)
      · rw [AList.lookup_insert_ne hC] at hSender
        rw [AList.lookup_insert_ne hD] at hSender'
        exact hCons.sender_unique c d channel hSender hSender'

end LocalRouter

end Bus

end Qanat

------------------------------------------------------------
-- Pruning
------------------------------------------------------------

namespace Qanat

namespace Bus

namespace LocalRouter

variable {M : Type}

/- One turn of the loop of `remove_consumers`. -/
def State.remove (s : State M) (id : ConsumerId) : State M :=
  { s with
    router := s.router.removeConsumer id
    senders := s.senders.erase id }

/- The senders that are left are as they were. -/
theorem lookup_of_remove
    {s : State M} {id c : ConsumerId} {channel : ChannelId}
    (hSender :
      (s.remove id).senders.lookup c = some channel) :
    s.senders.lookup c = some channel := by
  by_cases hEq : c = id
  · subst hEq
    simp [State.remove] at hSender
  · simpa [State.remove, AList.lookup_erase_ne hEq]
      using hSender

theorem Consistent.remove
    {s : State M}
    (hCons : Consistent s)
    (id : ConsumerId) :
    Consistent (s.remove id) := by
  have hSpec :=
    SubjectRouter.removeConsumer_spec hCons.table id
  refine ⟨hSpec.1, ?_, ?_, ?_⟩
  · intro c
    unfold State.remove
    rw [AList.mem_erase, hCons.senders_iff,
      SubjectRouter.mem_consumers_iff,
      SubjectRouter.mem_consumers_iff]
    simp only [hSpec.2]
    constructor
    · rintro ⟨hNe, label, hOld⟩
      exact ⟨label, hOld, hNe⟩
    · rintro ⟨label, hOld, hNe⟩
      exact ⟨hNe, label, hOld⟩
  · intro c channel hSender
    exact hCons.sender_lt c channel
      (lookup_of_remove hSender)
  · intro c d channel hSender hSender'
    exact hCons.sender_unique c d channel
      (lookup_of_remove hSender) (lookup_of_remove hSender')

theorem removeConsumers_channels
    (s : State M) (dead : List ConsumerId) :
    (removeConsumers s dead).channels = s.channels := by
  induction dead generalizing s with
  | nil => rfl
  | cons first rest ih => exact ih (s.remove first)

/- Only the dead leave the table. -/
theorem Consistent.removeConsumers_spec
    {s : State M}
    (hCons : Consistent s)
    (dead : List ConsumerId) :
    Consistent (removeConsumers s dead) ∧
      (removeConsumers s dead).channels = s.channels ∧
      ∀ id, id ∉ dead →
        (removeConsumers s dead).senders.lookup id =
            s.senders.lookup id ∧
          ∀ label,
            (removeConsumers s dead).router.Subscribed id
                label ↔
              s.router.Subscribed id label := by
  induction dead generalizing s with
  | nil => exact ⟨hCons, rfl, fun _ _ => ⟨rfl, fun _ => Iff.rfl⟩⟩
  | cons first rest ih =>
      rcases ih (hCons.remove first) with
        ⟨hConsistent, hChannels, hKept⟩
      refine ⟨hConsistent, hChannels, ?_⟩
      intro id hAlive
      rw [List.mem_cons, not_or] at hAlive
      rcases hKept id hAlive.2 with ⟨hLookup, hSubscribed⟩
      refine ⟨hLookup.trans
        (AList.lookup_erase_ne hAlive.1), ?_⟩
      intro label
      refine (hSubscribed label).trans ?_
      have hSpec :=
        (SubjectRouter.removeConsumer_spec hCons.table
          first).2 id label
      exact hSpec.trans (and_iff_left hAlive.1)

end LocalRouter

end Bus

end Qanat

------------------------------------------------------------
-- Reserving and Sending
------------------------------------------------------------

namespace Qanat

namespace Bus

namespace LocalRouter

variable {M : Type}

/- The channel of a consumer whose stream is open. -/
def liveChannel?
    (senders : AList (fun _ : ConsumerId => ChannelId))
    (channels : List (Channel M)) (id : ConsumerId) :
    Option ChannelId :=
  match senders.lookup id with
  | none => none
  | some channel =>
      match channels[channel]? with
      | some ⟨true, _⟩ => some channel
      | _ => none

/- The channels that a message for a subject is sent to. -/
def recipients (s : State M) (subject : String) :
    List ChannelId :=
  (s.router.route subject).2.filterMap
    (liveChannel? s.senders s.channels)

theorem liveChannel?_eq_some_iff
    {senders : AList (fun _ : ConsumerId => ChannelId)}
    {channels : List (Channel M)} {id : ConsumerId}
    {channel : ChannelId} :
    liveChannel? senders channels id = some channel ↔
      senders.lookup id = some channel ∧
        ∃ queue, channels[channel]? = some ⟨true, queue⟩ := by
  unfold liveChannel?
  cases hSender : senders.lookup id with
  | none => simp
  | some c =>
      have hOnly :
          some c = some channel ∧
              (∃ queue,
                channels[channel]? = some ⟨true, queue⟩) ↔
            c = channel ∧
              ∃ queue, channels[c]? = some ⟨true, queue⟩ := by
        constructor
        · rintro ⟨hSame, hOpen⟩
          cases hSame
          exact ⟨rfl, hOpen⟩
        · rintro ⟨rfl, hOpen⟩
          exact ⟨rfl, hOpen⟩
      rw [hOnly]
      cases hChannel : channels[c]? with
      | none => simp [hChannel]
      | some found =>
          rcases found with ⟨isOpen, queue⟩
          cases isOpen <;> simp [hChannel]

theorem open_of_tryReserve
    {channels : List (Channel M)} {permits : List ChannelId}
    {channel : ChannelId} {answer : Reserve}
    (hReserve : tryReserve channels permits channel = answer)
    (hOpen : answer ≠ .closed) :
    ∃ queue, channels[channel]? = some ⟨true, queue⟩ := by
  rw [← hReserve] at hOpen
  unfold tryReserve at hOpen
  cases hChannel : channels[channel]? with
  | none => simp [hChannel] at hOpen
  | some found =>
      rcases found with ⟨isOpen, queue⟩
      cases isOpen with
      | true => exact ⟨queue, rfl⟩
      | false => simp [hChannel] at hOpen

theorem tryReserve_eq_closed
    {channels : List (Channel M)} {permits : List ChannelId}
    {channel : ChannelId}
    (hReserve :
      tryReserve channels permits channel = .closed) :
    ∀ queue, channels[channel]? ≠ some ⟨true, queue⟩ := by
  intro queue hChannel
  unfold tryReserve at hReserve
  by_cases hRoom :
      queue.length + permits.count channel <
        subscriptionBuffer <;>
    simp [hChannel, hRoom] at hReserve

theorem liveChannel?_of_open
    {senders : AList (fun _ : ConsumerId => ChannelId)}
    {channels : List (Channel M)} {permits : List ChannelId}
    {id : ConsumerId} {channel : ChannelId}
    {answer : Reserve}
    (hSender : senders.lookup id = some channel)
    (hReserve : tryReserve channels permits channel = answer)
    (hOpen : answer ≠ .closed) :
    liveChannel? senders channels id = some channel :=
  liveChannel?_eq_some_iff.mpr
    ⟨hSender, open_of_tryReserve hReserve hOpen⟩

theorem liveChannel?_of_closed
    {senders : AList (fun _ : ConsumerId => ChannelId)}
    {channels : List (Channel M)} {permits : List ChannelId}
    {id : ConsumerId} {channel : ChannelId}
    (hSender : senders.lookup id = some channel)
    (hReserve :
      tryReserve channels permits channel = .closed) :
    liveChannel? senders channels id = none := by
  rw [Option.eq_none_iff_forall_ne_some]
  intro c hLive
  rcases liveChannel?_eq_some_iff.mp hLive with
    ⟨hSame, queue, hChannel⟩
  rw [hSender] at hSame
  cases hSame
  exact tryReserve_eq_closed hReserve queue hChannel

/- What the loop of `dispatch` leaves behind. -/
theorem reserve_spec
    {senders : AList (fun _ : ConsumerId => ChannelId)}
    {channels : List (Channel M)}
    (targets : List ConsumerId) (permits : List ChannelId)
    (dead : List ConsumerId) :
    match reserve senders channels targets permits dead with
    | .reserved permits' dead' =>
        permits' =
            permits ++
              targets.filterMap
                (liveChannel? senders channels) ∧
          ∀ id ∈ dead', id ∈ dead ∨
            liveChannel? senders channels id = none
    | .full dead' =>
        ∀ id ∈ dead', id ∈ dead ∨
          liveChannel? senders channels id = none := by
  induction targets generalizing permits dead with
  | nil => exact ⟨by simp, fun _ hMem => Or.inl hMem⟩
  | cons id rest ih =>
      unfold reserve
      cases hSender : senders.lookup id with
      | none =>
          have hDead : liveChannel? senders channels id = none :=
            by simp [liveChannel?, hSender]
          simpa [hDead] using ih permits dead
      | some channel =>
          cases hReserve :
              tryReserve channels permits channel with
          | permit =>
              have hLive :
                  liveChannel? senders channels id =
                    some channel :=
                liveChannel?_of_open hSender hReserve
                  (by simp)
              have hRest := ih (permits ++ [channel]) dead
              simpa [hReserve, hLive] using hRest
          | closed =>
              have hDead :
                  liveChannel? senders channels id = none :=
                liveChannel?_of_closed hSender hReserve
              have hKeep :
                  ∀ c, c ∈ dead ++ [id] ∨
                      liveChannel? senders channels c = none →
                    c ∈ dead ∨
                      liveChannel? senders channels c =
                        none := by
                rintro c (hOld | hNone)
                · rcases List.mem_append.mp hOld with
                    hMem | hNew
                  · exact Or.inl hMem
                  · rw [List.mem_singleton.mp hNew]
                    exact Or.inr hDead
                · exact Or.inr hNone
              have hRest := ih permits (dead ++ [id])
              simp only [hReserve]
              cases hLoop : reserve senders channels rest
                  permits (dead ++ [id]) with
              | reserved permits' dead' =>
                  rw [hLoop] at hRest
                  refine ⟨by simpa [hDead] using hRest.1, ?_⟩
                  exact fun c hMem =>
                    hKeep c (hRest.2 c hMem)
              | full dead' =>
                  rw [hLoop] at hRest
                  exact fun c hMem => hKeep c (hRest c hMem)
          | full =>
              simp only [hReserve]
              exact fun c hMem => Or.inl hMem

/- Each permit sends one message. -/
theorem foldl_send
    {message : M} {permits : List ChannelId}
    {channels : List (Channel M)}
    (hNodup : permits.Nodup)
    (channel : ChannelId) :
    (permits.foldl (send message) channels)[channel]? =
      channels[channel]?.map (fun found =>
        if channel ∈ permits then
          { found with queue := found.queue ++ [message] }
        else
          found) := by
  induction permits generalizing channels with
  | nil => simp
  | cons first rest ih =>
      rw [List.nodup_cons] at hNodup
      rw [List.foldl_cons, ih hNodup.2]
      unfold send
      rw [List.getElem?_modify]
      by_cases hEq : first = channel
      · subst hEq
        cases hChannel : channels[first]? <;>
          simp [hNodup.1]
      · have hNe : channel ≠ first := Ne.symm hEq
        cases hChannel : channels[channel]? <;>
          simp [hEq, hNe]

theorem foldl_send_length
    (message : M) (permits : List ChannelId)
    (channels : List (Channel M)) :
    (permits.foldl (send message) channels).length =
      channels.length := by
  induction permits generalizing channels with
  | nil => rfl
  | cons first rest ih =>
      rw [List.foldl_cons, ih]
      simp [send]

end LocalRouter

end Bus

end Qanat

------------------------------------------------------------
-- Dispatch
------------------------------------------------------------

namespace Qanat

namespace Bus

namespace LocalRouter

variable {M : Type}

/- Every recipient is sent one copy. -/
theorem Consistent.recipients_nodup
    {s : State M}
    (hCons : Consistent s)
    (subject : String) :
    (recipients s subject).Nodup := by
  have hTargets : (s.router.route subject).2.Nodup :=
    (s.router.route_sublist subject).nodup
      hCons.table.consumers_nodup
  refine hTargets.filterMap ?_
  intro id id' channel hLive hLive'
  exact hCons.sender_unique id id' channel
    (liveChannel?_eq_some_iff.mp hLive).1
    (liveChannel?_eq_some_iff.mp hLive').1

/- A consumer whose stream is open and its channel. -/
theorem Consistent.mem_recipients_iff
    {s : State M} {id : ConsumerId} {channel : ChannelId}
    {queue : List M}
    (hCons : Consistent s)
    (hSender : s.senders.lookup id = some channel)
    (hChannel : s.channels[channel]? = some ⟨true, queue⟩)
    (subject : String) :
    channel ∈ recipients s subject ↔
      id ∈ (s.router.route subject).2 := by
  unfold recipients
  rw [List.mem_filterMap]
  constructor
  · rintro ⟨id', hTarget, hLive⟩
    have hSender' := (liveChannel?_eq_some_iff.mp hLive).1
    rwa [hCons.sender_unique id id' channel hSender hSender']
  · intro hTarget
    exact ⟨id, hTarget, liveChannel?_eq_some_iff.mpr
      ⟨hSender, queue, hChannel⟩⟩

/- A dispatch makes no channel. -/
theorem dispatch_channels_length
    (s : State M) (subject : String) (message : M) :
    (dispatch s subject message).1.channels.length =
      s.channels.length := by
  unfold dispatch
  cases hReserve : reserve s.senders s.channels
      (s.router.route subject).2 [] [] with
  | full dead =>
      simp only [hReserve]
      rw [removeConsumers_channels]
  | reserved permits dead =>
      simp only [hReserve]
      rw [foldl_send_length, removeConsumers_channels]

/- What a dispatch does, and what it returns. -/
structure Dispatched
    (s : State M) (subject : String) (message : M)
    (s' : State M) (result : Except BusError Unit) :
    Prop where
  consistent : Consistent s'
  kept :
    ∀ id, s.IsOpen id →
      s'.senders.lookup id = s.senders.lookup id ∧
        ∀ label, s'.router.Subscribed id label ↔
          s.router.Subscribed id label
  outcome :
    (result = .ok () ∧
      ∀ channel, s'.channels[channel]? =
        s.channels[channel]?.map (fun found =>
          if channel ∈ recipients s subject then
            { found with
              queue := found.queue ++ [message] }
          else
            found)) ∨
      (result = .error (.backpressure
          ("subscriber queue is full for subject '" ++
            subject ++ "'")) ∧
        s'.channels = s.channels)

/- A dispatch that succeeds sends to the recipients. -/
theorem Dispatched.sent
    {s s' : State M} {subject : String} {message : M}
    (hDispatched : Dispatched s subject message s' (.ok ()))
    (channel : ChannelId) :
    s'.channels[channel]? =
      s.channels[channel]?.map (fun found =>
        if channel ∈ recipients s subject then
          { found with queue := found.queue ++ [message] }
        else
          found) := by
  rcases hDispatched.outcome with
    ⟨_, hChannels⟩ | ⟨hError, _⟩
  · exact hChannels channel
  · cases hError

/- A stream that is open after a dispatch was open before. -/
theorem Dispatched.open_before
    {s s' : State M} {subject : String} {message : M}
    {result : Except BusError Unit} {channel : ChannelId}
    {queue' : List M}
    (hDispatched : Dispatched s subject message s' result)
    (hOpen : s'.channels[channel]? = some ⟨true, queue'⟩) :
    ∃ queue, s.channels[channel]? = some ⟨true, queue⟩ := by
  rcases hDispatched.outcome with
    ⟨_, hChannels⟩ | ⟨_, hChannels⟩
  · rw [hChannels, Option.map_eq_some_iff] at hOpen
    rcases hOpen with ⟨⟨isOpen, queue⟩, hFound, hSame⟩
    refine ⟨queue, ?_⟩
    by_cases hMem : channel ∈ recipients s subject
    · rw [if_pos hMem] at hSame
      cases hSame
      exact hFound
    · rw [if_neg hMem] at hSame
      cases hSame
      exact hFound
  · rw [hChannels] at hOpen
    exact ⟨queue', hOpen⟩

theorem Consistent.dispatch_spec
    {s : State M}
    (hCons : Consistent s)
    (subject : String) (message : M) :
    Dispatched s subject message (dispatch s subject message).1
      (dispatch s subject message).2 := by
  have hRoute := SubjectRouter.route_spec hCons.table subject
  have hRouted :=
    hCons.withRouter hRoute.1 hRoute.2
  have hKept :
      ∀ dead : List ConsumerId,
        (∀ id ∈ dead,
          liveChannel? s.senders s.channels id = none) →
        ∀ id, s.IsOpen id →
          (removeConsumers
              { s with router := (s.router.route subject).1 }
              dead).senders.lookup id =
            s.senders.lookup id ∧
          ∀ label,
            (removeConsumers
              { s with router := (s.router.route subject).1 }
              dead).router.Subscribed id label ↔
            s.router.Subscribed id label := by
    intro dead hDead id hOpen
    rcases hOpen with ⟨channel, queue, hSender, hChannel⟩
    have hAlive : id ∉ dead := by
      intro hMem
      have hNone := hDead id hMem
      rw [liveChannel?_eq_some_iff.mpr
        ⟨hSender, queue, hChannel⟩] at hNone
      cases hNone
    rcases (hRouted.removeConsumers_spec dead).2.2 id hAlive
      with ⟨hLookup, hSubscribed⟩
    exact ⟨hLookup, fun label =>
      (hSubscribed label).trans (hRoute.2 id label)⟩
  have hLoop := @reserve_spec M s.senders s.channels
    (s.router.route subject).2 [] []
  unfold dispatch
  cases hReserve : reserve s.senders s.channels
      (s.router.route subject).2 [] [] with
  | full dead =>
      rw [hReserve] at hLoop
      simp only [hReserve]
      rcases hRouted.removeConsumers_spec dead with
        ⟨hConsistent, hChannels, _⟩
      refine ⟨hConsistent, hKept dead ?_,
        Or.inr ⟨rfl, hChannels⟩⟩
      intro id hMem
      rcases hLoop id hMem with hNil | hNone
      · cases hNil
      · exact hNone
  | reserved permits dead =>
      rw [hReserve] at hLoop
      simp only [hReserve]
      rcases hRouted.removeConsumers_spec dead with
        ⟨hConsistent, hChannels, _⟩
      have hPermits : permits = recipients s subject :=
        hLoop.1
      refine ⟨?_, hKept dead ?_, Or.inl ⟨rfl, ?_⟩⟩
      · apply hConsistent.withChannels
        exact foldl_send_length message permits _
      · intro id hMem
        rcases hLoop.2 id hMem with hNil | hNone
        · cases hNil
        · exact hNone
      · intro channel
        rw [hChannels, hPermits]
        exact foldl_send (hCons.recipients_nodup subject)
          channel

end LocalRouter

end Bus

end Qanat

------------------------------------------------------------
-- Runs
------------------------------------------------------------

namespace Qanat

namespace Bus

namespace LocalRouter

open Transition

variable {M : Type}

/- A fanout subscription adds one consumer. -/
theorem Consistent.subscribeFanout
    {s : State M}
    (hCons : Consistent s)
    (pattern : String) :
    Consistent (s.subscribe (s.router.addFanout pattern).1
      (s.router.addFanout pattern).2) := by
  rcases SubjectRouter.addFanout_spec hCons.table pattern with
    ⟨hId, hValid, hJoined⟩
  rw [hId]
  exact hCons.subscribe hValid hCons.table.fresh hJoined

/- A consumer can join any queue that was just bound. -/
theorem addConsumer_of_bindQueue
    {router router' : SubjectRouter} {pattern group : String}
    (hValid : router.Valid)
    (hBind : router.bindQueue pattern group = .ok router') :
    (router'.addConsumer group).2 = .ok router.nextId ∧
      (router'.addConsumer group).1.Valid ∧
      ∀ id label,
        (router'.addConsumer group).1.Subscribed id label ↔
          router.Subscribed id label ∨
            id = router.nextId ∧ label = .group group := by
  rcases SubjectRouter.bindQueue_spec hValid hBind with
    ⟨hBound, hNext, hBinding, hSame⟩
  rcases SubjectRouter.addConsumer_spec hBound hBinding with
    ⟨hAdded, hJoined, hSubscribed⟩
  rw [hNext] at hAdded hSubscribed
  refine ⟨hAdded, hJoined, ?_⟩
  intro id label
  rw [hSubscribed, hSame]

/-
  A group subscription adds one consumer or is rejected and
  leaves everything as it is.
-/
theorem Consistent.subscribeGroup_spec
    {s : State M}
    (hCons : Consistent s)
    (pattern group : String) :
    (∃ router,
        (subscribeGroup s pattern group).2 =
            .ok s.router.nextId ∧
          (subscribeGroup s pattern group).1 =
            s.subscribe router s.router.nextId ∧
          router.Valid ∧
          ∀ id label, router.Subscribed id label ↔
            s.router.Subscribed id label ∨
              id = s.router.nextId ∧
                label = .group group) ∨
      ∃ error,
        (subscribeGroup s pattern group).2 = .error error ∧
          (subscribeGroup s pattern group).1 = s := by
  unfold subscribeGroup
  cases hBind : s.router.bindQueue pattern group with
  | error error => exact Or.inr ⟨error, rfl, rfl⟩
  | ok router =>
      rcases addConsumer_of_bindQueue hCons.table hBind with
        ⟨hAdded, hValid, hJoined⟩
      rcases hAdd : router.addConsumer group with
        ⟨router', result⟩
      rw [hAdd] at hAdded hValid hJoined
      have hResult : result = .ok s.router.nextId := hAdded
      subst hResult
      simp only [hAdd]
      exact Or.inl ⟨router', trivial, rfl, hValid, hJoined⟩

/- A rejected group subscription changes nothing. -/
theorem Consistent.of_groupRejected
    {s s' : State M} {pattern group : String}
    {error : BusError}
    (hCons : Consistent s)
    (hStep : Step s (.groupRejected pattern group error) s') :
    s' = s := by
  cases hStep with
  | rejectGroup hError =>
      rcases hCons.subscribeGroup_spec pattern group with
        ⟨_, hOk, _⟩ | ⟨_, _, hSame⟩
      · rw [hOk] at hError
        cases hError
      · exact hSame

theorem Consistent.step
    {s s' : State M} {e : Event M}
    (hCons : Consistent s)
    (hStep : Step s e s') :
    Consistent s' := by
  cases hStep with
  | @dispatch subject message =>
      exact (hCons.dispatch_spec subject message).consistent
  | @subscribe pattern =>
      exact hCons.subscribeFanout pattern
  | @subscribeGroup pattern group id hOk =>
      rcases hCons.subscribeGroup_spec pattern group with
        ⟨router, _, hState, hValid, hJoined⟩ |
          ⟨_, hError, _⟩
      · rw [hState]
        exact hCons.subscribe hValid hCons.table.fresh hJoined
      · rw [hOk] at hError
        cases hError
  | @rejectGroup pattern group error hError =>
      rw [hCons.of_groupRejected (Step.rejectGroup hError)]
      exact hCons
  | receive hChannel =>
      exact hCons.withChannels (by simp)
  | drop hChannel =>
      exact hCons.withChannels (by simp)

/- The table and the senders are in step in every run. -/
theorem consistent_of_reachable
    {trace : List (Event M)} {s : State M}
    (hReach : (lts M).Reachable trace s) :
    Consistent s := by
  apply hReach.stateInvariant
  · rintro s rfl
    exact Consistent.start
  · intro s e s' hCons hStep
    exact hCons.step hStep

end LocalRouter

namespace SubjectRouter

/- Fanout bindings have different patterns. -/
theorem Valid.fanout_patterns_nodup
    {router : SubjectRouter}
    (hValid : router.Valid) :
    ((router.bindings.filter
      (fun b => b.queue.isNone)).map
        Binding.subjectPattern).Nodup := by
  have hLabels :
      ((router.bindings.filter
        (fun b => b.queue.isNone)).map
          Binding.label).Nodup :=
    (List.filter_sublist.map Binding.label).nodup
      hValid.labels_nodup
  have hSame :
      (router.bindings.filter
          (fun b => b.queue.isNone)).map Binding.label =
        ((router.bindings.filter
          (fun b => b.queue.isNone)).map
            Binding.subjectPattern).map Label.fanout := by
    rw [List.map_map]
    apply List.map_congr_left
    intro b hMem
    have hNone := (List.mem_filter.mp hMem).2
    rw [Option.isNone_iff_eq_none] at hNone
    exact Binding.label_eq_fanout_iff.mpr ⟨hNone, rfl⟩
  rw [hSame] at hLabels
  exact hLabels.of_map _

/- Queue bindings have different names. -/
theorem Valid.queues_nodup
    {router : SubjectRouter}
    (hValid : router.Valid) :
    (router.bindings.filterMap Binding.queue).Nodup := by
  have hSub :
      List.Sublist
        ((router.bindings.filterMap Binding.queue).map
          Label.group)
        (router.bindings.map Binding.label) := by
    induction router.bindings with
    | nil => exact List.Sublist.refl _
    | cons b rest ih =>
        cases hQueue : b.queue with
        | none =>
            rw [List.filterMap_cons_none hQueue]
            exact ih.cons _
        | some queue =>
            rw [List.filterMap_cons_some hQueue,
              List.map_cons, List.map_cons,
              Binding.label_eq_group_iff.mpr hQueue]
            exact ih.cons_cons _
  exact (hSub.nodup hValid.labels_nodup).of_map _

end SubjectRouter

namespace LocalRouter

open Transition

variable {M : Type}

/-
  In every state of a run the consumers of the table are in
  one binding each and are those with a sender, bindings are
  told apart by patterns and names, a bound queue takes
  consumers, and a rejected subscription changes nothing.
-/
theorem table_and_senders_sound
    {trace : List (Event M)} {s : State M}
    (hReach : (lts M).Reachable trace s) :
    (s.router.bindings.flatMap Binding.consumers).Nodup ∧
    (∀ b ∈ s.router.bindings, ∀ id ∈ b.consumers,
      id < s.router.nextId) ∧
    (∀ id, id ∈ s.senders ↔
      ∃ b ∈ s.router.bindings, id ∈ b.consumers) ∧
    (∀ subject, ∀ id ∈ (s.router.route subject).2,
      ∃ channel, s.senders.lookup id = some channel) ∧
    ((s.router.bindings.filter
      (fun b => b.queue.isNone)).map
        Binding.subjectPattern).Nodup ∧
    (∀ b ∈ s.router.bindings, b.queue = none →
      b.consumers ≠ []) ∧
    (s.router.bindings.filterMap Binding.queue).Nodup ∧
    (∀ pattern group router,
      s.router.bindQueue pattern group = .ok router →
        ∃ id, (router.addConsumer group).2 = .ok id) ∧
    (∀ pattern group error s',
      Step s (.groupRejected pattern group error) s' →
        s' = s) := by
  have hCons := consistent_of_reachable hReach
  have hTable := hCons.table
  refine ⟨hTable.consumers_nodup, ?_, ?_, ?_,
    hTable.fanout_patterns_nodup, hTable.fanout_nonempty,
    hTable.queues_nodup, ?_, ?_⟩
  · intro b hBinding id hMem
    exact hTable.consumers_lt id
      (List.mem_flatMap.mpr ⟨b, hBinding, hMem⟩)
  · intro id
    rw [hCons.senders_iff]
    exact List.mem_flatMap
  · intro subject id hTarget
    exact hCons.sender_of_target hTarget
  · intro pattern group router hBind
    exact ⟨_, (addConsumer_of_bindQueue hTable hBind).1⟩
  · intro pattern group error s' hStep
    exact hCons.of_groupRejected hStep

/-
  Two fanout streams and a worker; what was asked for a
  second pattern of the workers is refused.  After the first
  order one of the streams goes.
-/
def ordersTrace : List (Event Nat) :=
  [.subscribed "orders.*" 0,
    .subscribed ">" 1,
    .groupSubscribed "orders.*" "billing" 2,
    .groupRejected "jobs.*" "billing"
      (.internal ("queue 'billing' is already bound to " ++
        "pattern 'orders.*'")),
    .dispatched "orders.created" 7 (.ok ()),
    .received 0 7,
    .dropped 1]

/- The sender of the stream that is gone is still there. -/
def ordersState : State Nat where
  router :=
    { bindings :=
        [{ subjectPattern := "orders.*"
           queue := none
           consumers := [1]
           rrIndex := 0 },
          { subjectPattern := ">"
            queue := none
            consumers := [2]
            rrIndex := 0 },
          { subjectPattern := "orders.*"
            queue := some "billing"
            consumers := [3]
            rrIndex := 1 }]
      nextId := 4 }
  senders :=
    (((∅ : AList (fun _ : ConsumerId => ChannelId)).insert 1
      0).insert 2 1).insert 3 2
  channels := [⟨true, []⟩, ⟨false, []⟩, ⟨true, [7]⟩]

theorem orders_reachable :
    (lts Nat).Reachable ordersTrace ordersState := by
  have hStart :
      (lts Nat).Reachable [] (State.start : State Nat) :=
    Lts.Reachable.initial rfl
  have hOrders := hStart.step (@Step.subscribe Nat _ "orders.*")
  have hAll := hOrders.step (@Step.subscribe Nat _ ">")
  have hBilling := hAll.step
    (@Step.subscribeGroup Nat _ "orders.*" "billing" 3 rfl)
  have hRefused := hBilling.step
    (@Step.rejectGroup Nat _ "jobs.*" "billing" _ rfl)
  have hCreated := hRefused.step
    (@Step.dispatch Nat _ "orders.created" 7)
  have hTaken := hCreated.step
    (@Step.receive Nat _ 0 7 [] rfl)
  exact hTaken.step (@Step.drop Nat _ 1 [7] rfl)

/- The next order takes the lost consumer from both sides. -/
theorem table_and_senders_sound_orders :
    ∃ s, (lts Nat).Reachable
        (ordersTrace ++ [.dispatched "orders.paid" 8 (.ok ())])
        s ∧
      s.router.nextId = 4 ∧ 2 ∉ s.senders ∧
      ∀ id, id ∈ s.senders ↔
        ∃ b ∈ s.router.bindings, id ∈ b.consumers := by
  have hPaid := orders_reachable.step
    (@Step.dispatch Nat _ "orders.paid" 8)
  exact ⟨_, hPaid, rfl, by decide,
    (table_and_senders_sound hPaid).2.2.1⟩

end LocalRouter

end Bus

end Qanat

------------------------------------------------------------
-- Counters
------------------------------------------------------------

namespace Qanat

namespace Bus

namespace SubjectRouter

variable {router router' : SubjectRouter} {n : Nat}

/- How far the counters of a table have come. -/
structure Within (router : SubjectRouter) (n : Nat) :
    Prop where
  ids : router.nextId ≤ n + 1
  turns : ∀ b ∈ router.bindings, b.rrIndex ≤ n

theorem Within.succ
    (hWithin : router.Within n) :
    router.Within (n + 1) where
  ids := Nat.le_succ_of_le hWithin.ids
  turns := fun b hMem => Nat.le_succ_of_le (hWithin.turns b hMem)

/- A consumer joins a binding that is there. -/
theorem Within.modifyFirst
    {p : Binding → Bool} {id : ConsumerId}
    {bindings : List Binding}
    (hWithin : router.Within n)
    (hModify :
      Bus.modifyFirst p (Binding.push id) router.bindings =
        some bindings) :
    Within ⟨bindings, router.nextId + 1⟩ (n + 1) := by
  refine ⟨Nat.succ_le_succ hWithin.ids, ?_⟩
  rcases modifyFirst_eq_some hModify with
    ⟨front, a, back, hBindings, _, _, rfl⟩
  have hTurns := hWithin.succ.turns
  rw [hBindings, List.forall_mem_append, List.forall_mem_cons]
    at hTurns
  rw [List.forall_mem_append, List.forall_mem_cons]
  exact hTurns

/- A binding is made, whose turns begin. -/
theorem Within.append
    {nextId : ConsumerId} {b : Binding}
    (hWithin : router.Within n)
    (hNext : nextId ≤ n + 1)
    (hNew : b.rrIndex = 0) :
    Within ⟨router.bindings ++ [b], nextId⟩ n := by
  refine ⟨hNext, ?_⟩
  rw [List.forall_mem_append, List.forall_mem_singleton, hNew]
  exact ⟨hWithin.turns, Nat.zero_le n⟩

theorem Within.addFanout
    (hWithin : router.Within n)
    (pattern : String) :
    (router.addFanout pattern).1.Within (n + 1) := by
  unfold SubjectRouter.addFanout allocId
  cases hModify : Bus.modifyFirst (Binding.isFanoutOf pattern)
      (Binding.push router.nextId) router.bindings with
  | some bindings =>
      simp only [hModify]
      exact hWithin.modifyFirst hModify
  | none =>
      simp only [hModify]
      exact hWithin.succ.append
        (Nat.succ_le_succ hWithin.ids) rfl

theorem Within.bindQueue
    {pattern queue : String}
    (hWithin : router.Within n)
    (hBind : router.bindQueue pattern queue = .ok router') :
    router'.Within n := by
  unfold SubjectRouter.bindQueue at hBind
  cases hFind : router.bindings.find?
      (Binding.isQueue queue) with
  | some b =>
      simp only [hFind] at hBind
      by_cases hOther : b.subjectPattern ≠ pattern
      · rw [if_pos hOther] at hBind
        cases hBind
      · rw [if_neg hOther] at hBind
        cases hBind
        exact hWithin
  | none =>
      simp only [hFind] at hBind
      cases hBind
      exact hWithin.append hWithin.ids rfl

theorem Within.addConsumer
    (hWithin : router.Within n)
    (queue : String) :
    (router.addConsumer queue).1.Within (n + 1) := by
  unfold SubjectRouter.addConsumer allocId
  cases hModify : Bus.modifyFirst (Binding.isQueue queue)
      (Binding.push router.nextId) router.bindings with
  | some bindings =>
      simp only [hModify]
      exact hWithin.modifyFirst hModify
  | none =>
      simp only [hModify]
      exact ⟨Nat.succ_le_succ hWithin.ids,
        hWithin.succ.turns⟩

/- A binding is chosen at most once. -/
theorem Within.route
    (hWithin : router.Within n)
    (subject : String) :
    (router.route subject).1.Within (n + 1) := by
  refine ⟨hWithin.succ.ids, ?_⟩
  intro b' hMem
  rcases List.mem_map.mp hMem with ⟨b, hOld, rfl⟩
  have hTurn : (b.route subject).1.rrIndex ≤ b.rrIndex + 1 := by
    unfold Binding.route
    grind
  exact Nat.le_trans hTurn
    (Nat.succ_le_succ (hWithin.turns b hOld))

theorem Within.removeConsumer
    (hWithin : router.Within n)
    (id : ConsumerId) :
    (router.removeConsumer id).Within n := by
  refine ⟨hWithin.ids, ?_⟩
  intro b' hMem
  rcases List.mem_map.mp (List.mem_filter.mp hMem).1 with
    ⟨b, hOld, rfl⟩
  exact hWithin.turns b hOld

end SubjectRouter

namespace LocalRouter

open Transition

variable {M : Type}

theorem removeConsumers_within
    {s : State M} {n : Nat}
    (hWithin : s.router.Within n)
    (dead : List ConsumerId) :
    (removeConsumers s dead).router.Within n := by
  induction dead generalizing s with
  | nil => exact hWithin
  | cons first rest ih =>
      exact @ih (s.remove first) (hWithin.removeConsumer first)

/- A step advances each counter by one at most. -/
theorem within_of_step
    {s s' : State M} {e : Event M} {n : Nat}
    (hWithin : s.router.Within n)
    (hStep : Step s e s') :
    s'.router.Within (n + 1) := by
  have hGroup : ∀ pattern group,
      (subscribeGroup s pattern group).1.router.Within
        (n + 1) := by
    intro pattern group
    unfold subscribeGroup
    cases hBind : s.router.bindQueue pattern group with
    | error _ => exact hWithin.succ
    | ok router =>
        have hAdded :=
          (hWithin.bindQueue hBind).addConsumer group
        rcases hAdd : router.addConsumer group with
          ⟨router', result⟩
        rw [hAdd] at hAdded
        simp only [hAdd]
        cases result with
        | ok _ => exact hAdded
        | error _ => exact hAdded
  cases hStep with
  | @dispatch subject message =>
      have hRouted := hWithin.route subject
      unfold dispatch
      cases hReserve : reserve s.senders s.channels
          (s.router.route subject).2 [] [] with
      | full dead =>
          simp only [hReserve]
          exact removeConsumers_within hRouted dead
      | reserved permits dead =>
          simp only [hReserve]
          exact removeConsumers_within hRouted dead
  | subscribe => exact hWithin.addFanout _
  | subscribeGroup _ => exact hGroup _ _
  | rejectGroup _ => exact hGroup _ _
  | receive _ => exact hWithin.succ
  | drop _ => exact hWithin.succ

/-
  The `u64` of consumer ids and the `usize` of round-robin
  indices do not overflow in runs that a process can make.
-/
theorem counters_in_range
    {trace : List (Event M)} {s : State M}
    (hReach : (lts M).Reachable trace s)
    (hFew : trace.length + 1 < UInt64.size) :
    s.router.nextId < UInt64.size ∧
      ∀ b ∈ s.router.bindings, b.rrIndex < UInt64.size := by
  have hWithin : s.router.Within trace.length := by
    apply hReach.invariant
    · rintro s rfl
      exact ⟨Nat.le_refl 1, nofun⟩
    · intro trace s e s' _ hWithin hStep
      rw [List.length_append, List.length_singleton]
      exact within_of_step hWithin hStep
  exact ⟨Nat.lt_of_le_of_lt hWithin.ids hFew, fun b hMem =>
    Nat.lt_of_le_of_lt (hWithin.turns b hMem)
      (Nat.lt_of_succ_lt hFew)⟩

end LocalRouter

end Bus

end Qanat
