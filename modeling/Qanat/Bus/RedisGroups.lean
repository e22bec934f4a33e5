import Qanat.Bus.RedisChannel

/-
  Queue groups on the buses of one channel.  Each bus has
  members of its own and picks one of them for every message
  that matches: the group is served once for each bus that
  has members.

  Main declarations:
    * `RedisChannel.Unhindered`
    * `RedisChannel.HasMember`, `RedisChannel.Delivered`
    * `RedisChannel.group_served_by_each_instance`
-/

------------------------------------------------------------
-- Open Streams with Room
------------------------------------------------------------

namespace Qanat

namespace Bus

namespace RedisChannel

open Transition
open LocalRouter (ChannelId Consistent Registered)
open ReceiveLoop (decoded? IsMessageOf)

variable {ι : Type} [DecidableEq ι]

/- All streams are open and, when a frame comes, have room. -/
def Unhindered (s : State ι) : Event ι → Prop
| .routed i _ _ _ _ =>
    ∀ channel, ¬ LocalRouter.Crowded
      (s.instances i).loop.router.channels channel
| .client _ (.dropped _) => False
| _ => True

/- The router of one bus in a run of the channel. -/
theorem router_reachable
    {trace : List (Event ι)} {s : State ι}
    (hReach : (lts ι).Reachable trace s)
    (i : ι) :
    (LocalRouter.lts RawMessage).Reachable
      ((trace.filterMap (Event.at? i)).filterMap
        ReceiveLoop.Event.router?)
      (s.instances i).loop.router :=
  ReceiveLoop.router_reachable (loop_reachable hReach i)

/- What clients do is seen by the router of their bus. -/
theorem mem_router_iff
    {trace : List (Event ι)} {i : ι}
    {event : LocalRouter.Event RawMessage}
    (hClient :
      ∀ subject message result,
        event ≠ .dispatched subject message result) :
    event ∈ (trace.filterMap (Event.at? i)).filterMap
        ReceiveLoop.Event.router? ↔
      Event.client i event ∈ trace := by
  constructor
  · intro hMem
    rcases List.mem_filterMap.mp hMem with ⟨x, hAt, hSeen⟩
    rcases List.mem_filterMap.mp hAt with ⟨e, hEvent, hHere⟩
    have hLoop : x = .client event := by
      cases x with
      | client other =>
          cases hSeen
          rfl
      | routed message result =>
          cases hSeen
          exact absurd rfl (hClient _ _ _)
      | routedOwn message result =>
          cases hSeen
          exact absurd rfl (hClient _ _ _)
      | _ => cases hSeen
    subst hLoop
    cases e with
    | client j other =>
        by_cases hSame : j = i
        · rw [Event.at?, if_pos hSame] at hHere
          cases hHere
          rwa [← hSame]
        · rw [Event.at?, if_neg hSame] at hHere
          cases hHere
    | published j bytes => cases hHere
    | received j bytes =>
        by_cases hSame : j = i <;>
          simp [Event.at?, hSame] at hHere
    | routed j position message result sent =>
        by_cases hSame : j = i <;>
          simp [Event.at?, hSame] at hHere
  · intro hMem
    refine List.mem_filterMap.mpr ⟨.client event, ?_, rfl⟩
    exact List.mem_filterMap.mpr
      ⟨_, hMem, by simp [Event.at?]⟩

/- In such a run, no stream of any bus is dropped. -/
theorem not_dropped
    {trace : List (Event ι)} {s : State ι}
    (hReach : ((lts ι).restrict Unhindered).Reachable trace s)
    (i : ι) (channel : ChannelId) :
    Event.client i (.dropped channel) ∉ trace := by
  intro hMem
  rcases hReach.step_of_mem hMem with
    ⟨_, _, r, r', _, _, _, hFalse⟩
  exact hFalse

/- A message is sent to its recipients, if there is room. -/
theorem mem_sentTo_route_iff
    {s : ReceiveLoop.State} {message : RawMessage}
    (hCons : Consistent s.router)
    (hAccepts : s.router.Accepts message.envelope.subject)
    {channel : ChannelId} :
    channel ∈ sentTo message s.router
        (s.route message).router ↔
      channel ∈ LocalRouter.recipients s.router
        message.envelope.subject := by
  have hSent := (hCons.dispatch_accepted hAccepts message).sent
  unfold ReceiveLoop.State.route ReceiveLoop.dispatchLocal
  rw [mem_sentTo_iff]
  constructor
  · rintro ⟨queue, hBefore, hAfter⟩
    by_contra hNot
    rw [hSent, hBefore, Option.map_some, if_neg hNot]
      at hAfter
    simp at hAfter
  · intro hMem
    rcases List.mem_filterMap.mp hMem with ⟨id, _, hLive⟩
    rcases LocalRouter.liveChannel?_eq_some_iff.mp hLive with
      ⟨_, queue, hBefore⟩
    refine ⟨queue, hBefore, ?_⟩
    rw [hSent, hBefore, Option.map_some, if_pos hMem]

/- A bus with members sends a message to one of them. -/
theorem one_sent
    {trace : List (Event ι)} {s s' : State ι} {i : ι}
    {position : Nat} {message : RawMessage}
    {result : Except BusError Unit}
    {sent : List ChannelId} {pattern group : String}
    {channel : ChannelId}
    (hReach : ((lts ι).restrict Unhindered).Reachable trace s)
    (hStep :
      Step s (.routed i position message result sent) s')
    (hRoom :
      Unhindered s (.routed i position message result sent))
    (hMatch :
      wildcardMatch pattern message.envelope.subject = true)
    (hMem :
      Event.client i (.groupSubscribed pattern group channel) ∈
        trace) :
    ∃! c, Event.client i (.groupSubscribed pattern group c) ∈
        trace ∧ c ∈ sent := by
  have hRouter := router_reachable hReach.of_restrict i
  have hCons := LocalRouter.consistent_of_reachable hRouter
  have hOpen := LocalRouter.all_open_of_reachable hRouter (by
    intro c hDropped
    exact not_dropped hReach i c
      ((mem_router_iff (by simp)).mp hDropped))
  have hMember : ∀ c,
      LocalRouter.Event.groupSubscribed pattern group c ∈
          (trace.filterMap (Event.at? i)).filterMap
            ReceiveLoop.Event.router? ↔
        Event.client i (.groupSubscribed pattern group c) ∈
          trace :=
    fun _ => mem_router_iff (by simp)
  have hOne :=
    (LocalRouter.registered_of_reachable hRouter).one_recipient
      hCons hOpen ((hMember channel).mpr hMem) hMatch
  have hAccepts :
      (s.instances i).loop.router.Accepts
        message.envelope.subject :=
    fun id _ c _ => hRoom c
  cases hStep with
  | route _ hLoop =>
      rcases hLoop.of_routed with ⟨_, _, rfl⟩
      simp only [mem_sentTo_route_iff hCons hAccepts]
      simpa only [hMember] using hOne

end RedisChannel

end Bus

end Qanat

------------------------------------------------------------
-- Groups over All Buses
------------------------------------------------------------

namespace Qanat

namespace Bus

namespace RedisChannel

open Transition
open LocalRouter (ChannelId)

variable {ι : Type} [DecidableEq ι]

/- The bus had a member when it routed the frame. -/
def HasMember
    (trace : List (Event ι)) (pattern group : String)
    (position : Nat) (i : ι) : Prop :=
  ∃ earlier later message result sent channel,
    trace =
        earlier ++
          .routed i position message result sent :: later ∧
      Event.client i (.groupSubscribed pattern group channel) ∈
        earlier

/- The frame was sent to the member, named with its bus. -/
def Delivered
    (trace : List (Event ι)) (pattern group : String)
    (position : Nat) (member : ι × ChannelId) : Prop :=
  ∃ earlier later message result sent,
    trace =
        earlier ++
          .routed member.1 position message result sent ::
            later ∧
      Event.client member.1
          (.groupSubscribed pattern group member.2) ∈
        earlier ∧
      member.2 ∈ sent

variable {trace : List (Event ι)} {s : State ι}
variable {pattern group : String} {position : Nat}
variable {frame : Wire.DecodedFrame}

omit [DecidableEq ι] in
theorem HasMember.of_delivered
    {i : ι} {channel : ChannelId}
    (hDelivered :
      Delivered trace pattern group position (i, channel)) :
    HasMember trace pattern group position i := by
  rcases hDelivered with
    ⟨earlier, later, message, result, sent, hTrace, hMem, _⟩
  exact ⟨earlier, later, message, result, sent, channel,
    hTrace, hMem⟩

/- A bus that has members sends the frame to one of them. -/
theorem HasMember.delivered_once
    (hReach : ((lts ι).restrict Unhindered).Reachable trace s)
    (hFrame : s.frame? position = some frame)
    (hMatch : wildcardMatch pattern frame.subject = true)
    {i : ι}
    (hHas : HasMember trace pattern group position i) :
    ∃! channel,
      Delivered trace pattern group position (i, channel) := by
  have hSynced := synced_of_reachable hReach.of_restrict
  rcases hHas with
    ⟨earlier, later, message, result, sent, channel, rfl,
      hMem⟩
  rcases hSynced.routed i position message result sent
      (by simp) with ⟨_, found, hFound, _, _, _, rfl⟩
  rw [hFrame] at hFound
  cases hFound
  rcases hReach.before rfl with
    ⟨r, r', hBefore, hStep, hRoom⟩
  rcases one_sent hBefore hStep hRoom hMatch hMem with
    ⟨c, ⟨hMember, hSent⟩, hOnly⟩
  refine ⟨c, ⟨earlier, later, _, result, sent, rfl, hMember,
    hSent⟩, ?_⟩
  rintro c' ⟨earlier', later', message', result', sent',
    hTrace, hMember', hSent'⟩
  rcases Lists.eq_of_split hSynced.once hTrace
      (rfl : Event.routedAt? _ = some (i, position)) rfl with
    ⟨rfl, hSame, _⟩
  cases hSame
  exact hOnly c' ⟨hMember', hSent'⟩

/-
  Every bus routes the frames that it receives, and each bus
  that has members of a group sends a frame that matches to
  exactly one of them.  So the frame is sent to exactly one
  member of the group over all buses if and only if exactly
  one bus has members.
-/
theorem group_served_by_each_instance
    (hReach : ((lts ι).restrict Unhindered).Reachable trace s)
    (hFrame : s.frame? position = some frame)
    (hMatch : wildcardMatch pattern frame.subject = true) :
    (∀ i, s.Passed i position →
      (i, position) ∈ trace.filterMap Event.routedAt?) ∧
    (∀ i, HasMember trace pattern group position i →
      ∃! channel,
        Delivered trace pattern group position (i, channel)) ∧
    ((∃! member, Delivered trace pattern group position
        member) ↔
      ∃! i, HasMember trace pattern group position i) := by
  have hOnce : ∀ i,
      HasMember trace pattern group position i →
        ∃! channel, Delivered trace pattern group position
          (i, channel) :=
    fun i => HasMember.delivered_once hReach hFrame hMatch
  refine ⟨?_, hOnce, ?_, ?_⟩
  · intro i hPassed
    exact (synced_of_reachable hReach.of_restrict).complete i
      position frame hPassed hFrame
  · rintro ⟨⟨i, channel⟩, hDelivered, hOnly⟩
    refine ⟨i, HasMember.of_delivered hDelivered, ?_⟩
    intro j hHas
    rcases hOnce j hHas with ⟨channel', hOther, _⟩
    exact congrArg Prod.fst (hOnly (j, channel') hOther)
  · rintro ⟨i, hHas, hOnly⟩
    rcases hOnce i hHas with ⟨channel, hDelivered, hOne⟩
    refine ⟨(i, channel), hDelivered, ?_⟩
    rintro ⟨j, channel'⟩ hOther
    have hSame := hOnly j (HasMember.of_delivered hOther)
    subst hSame
    exact congrArg (Prod.mk j) (hOne channel' hOther)

end RedisChannel

end Bus

end Qanat

------------------------------------------------------------
-- Two Workers on Two Buses
------------------------------------------------------------

namespace Qanat

namespace Bus

namespace RedisChannel

open Transition
open LocalRouter (ChannelId)
open ReceiveLoop (decoded?)

/- An idle bus with room passes its next frame. -/
theorem exists_passed
    {ι : Type} [DecidableEq ι]
    {trace : List (Event ι)} {s : State ι} {i : ι}
    {position : Nat} {bytes : Bytes}
    {frame : Wire.DecodedFrame}
    {before : LocalRouter.State RawMessage}
    (hReach : ((lts ι).restrict Unhindered).Reachable trace s)
    (hIdle : (s.instances i).loop.routing = none)
    (hReceived : (s.instances i).received = position)
    (hNext : s.published[position]? = some bytes)
    (hDecoded : decoded? bytes = some frame)
    (hRouter : (s.instances i).loop.router = before)
    (hRoom : ∀ channel,
      ¬ LocalRouter.Crowded before.channels channel) :
    ∃ message result sent new,
      message.envelope.subject = frame.subject ∧
        ((lts ι).restrict Unhindered).Reachable
          (trace ++ [.received i bytes] ++
            [.routed i position message result sent])
          (s.set i new) ∧
        new.received = position + 1 ∧
        new.loop.routing = none ∧
        (new.loop.router, result) =
          LocalRouter.dispatch before frame.subject message ∧
        sent = sentTo message before new.loop.router := by
  subst hReceived hRouter
  have hArrives := @ReceiveLoop.Step.receive _ bytes
    FiniteMap.Iteration.identity "fresh" hIdle
  rw [ReceiveLoop.receive_eq, hDecoded] at hArrives
  have hMessage :
      ∃ message : RawMessage,
        message.envelope.subject = frame.subject ∧
          ReceiveLoop.Step .redis (s.instances i).loop
            (.arrived bytes)
            ((s.instances i).loop.handOver (some message)) :=
    ⟨_, rfl, hArrives⟩
  rcases hMessage with ⟨message, hSubject, hArrives⟩
  have hTaken := hReach.step
    ⟨Step.receive hNext hArrives, trivial⟩
  have hHere := set_self s i
    ⟨(s.instances i).received + 1,
      (s.instances i).loop.handOver (some message)⟩
  have hRoute := @Step.route ι _ _ i (s.instances i).received
    message _ _ (congrArg Instance.received hHere)
    (ReceiveLoop.Step.route
      (congrArg (fun b => b.loop.routing) hHere))
  have hRouted := hTaken.step
    ⟨hRoute, fun channel => by
      rw [hHere, ReceiveLoop.handOver_router]
      exact hRoom channel⟩
  rw [hHere, set_set] at hRouted
  refine ⟨message, _, _, _, hSubject, hRouted, rfl, rfl, ?_,
    rfl⟩
  rw [← hSubject]
  rfl

/- A bus with one worker that has nothing to do. -/
def workerRouter : LocalRouter.State RawMessage where
  router :=
    { bindings :=
        [{ subjectPattern := "jobs.*"
           queue := some "workers"
           consumers := [1]
           rrIndex := 0 }]
      nextId := 2 }
  senders :=
    (∅ : AList (fun _ : ConsumerId =>
      ChannelId)).insert 1 0
  channels := [LocalRouter.Channel.new]

def workerLoop : ReceiveLoop.State :=
  { ReceiveLoop.State.start with router := workerRouter }

def jobFrame : Bytes :=
  Redis.publishBytes FiniteMap.Iteration.identity "jobs.a" []
    none

theorem job_decoded :
    ∃ frame, frame.subject = "jobs.a" ∧
      decoded? jobFrame = some frame := by
  have hFits : Wire.Fits "jobs.a" none := by decide +kernel
  rcases ReceiveLoop.decoded_of_fits hFits
      FiniteMap.Iteration.identity [] with
    ⟨frame, hSubject, _, hDecoded⟩
  exact ⟨frame, hSubject, hDecoded⟩

theorem frame?_eq
    {ι : Type} {s : State ι}
    (hPublished : s.published = [jobFrame]) :
    s.frame? 0 = decoded? jobFrame := by
  unfold State.frame?
  rw [hPublished, List.getElem?_cons_zero, Option.bind_some]

theorem worker_not_crowded (channel : ChannelId) :
    ¬ LocalRouter.Crowded workerRouter.channels channel :=
  LocalRouter.not_crowded_of_forall (by decide) channel

/- A worker joins on a bus that is new. -/
theorem worker_joins
    {trace : List (Event Bool)} {s : State Bool} {i : Bool}
    (hReach :
      ((lts Bool).restrict Unhindered).Reachable trace s)
    (hNew : s.instances i = ⟨0, ReceiveLoop.State.start⟩) :
    ((lts Bool).restrict Unhindered).Reachable
      (trace ++
        [.client i (.groupSubscribed "jobs.*" "workers" 0)])
      (s.set i ⟨0, workerLoop⟩) := by
  have hLoop :
      ReceiveLoop.Step .redis (s.instances i).loop
        (.client (.groupSubscribed "jobs.*" "workers" 0))
        workerLoop := by
    rw [hNew]
    exact ReceiveLoop.Step.client
      (@LocalRouter.Step.subscribeGroup _ _ "jobs.*" "workers"
        1 rfl) (by simp)
  have hStep := Step.client hLoop
  rw [hNew] at hStep
  exact hReach.step ⟨hStep, trivial⟩

/- A bus with a worker sends the first job to it. -/
theorem worker_passes
    {trace : List (Event Bool)} {s : State Bool} {i : Bool}
    (hReach :
      ((lts Bool).restrict Unhindered).Reachable trace s)
    (hPublished : s.published = [jobFrame])
    (hNew : s.instances i = ⟨0, workerLoop⟩) :
    ∃ message result sent new,
      ((lts Bool).restrict Unhindered).Reachable
          (trace ++ [.received i jobFrame] ++
            [.routed i 0 message result sent])
          (s.set i new) ∧
        0 ∈ sent := by
  rcases job_decoded with ⟨frame, hJob, hDecoded⟩
  rcases exists_passed hReach (by rw [hNew]; rfl)
      (congrArg Instance.received hNew)
      (by rw [hPublished]; rfl) hDecoded
      (congrArg (fun b => b.loop.router) hNew)
      worker_not_crowded with
    ⟨message, result, sent, new, _, hRouted, _, _, hDispatch,
      hSent⟩
  rw [hJob] at hDispatch
  refine ⟨message, result, sent, new, hRouted, ?_⟩
  have hRouter : new.loop.router = _ :=
    congrArg Prod.fst hDispatch
  rw [hSent, mem_sentTo_iff, hRouter]
  exact ⟨[], rfl, rfl⟩

/- The channel after the first job is published. -/
def jobPublished : State Bool where
  published := [jobFrame]
  instances _ := ⟨0, workerLoop⟩

theorem jobPublished_reachable :
    ∃ trace,
      ((lts Bool).restrict Unhindered).Reachable trace
          jobPublished ∧
        ∀ i, Event.client i
          (.groupSubscribed "jobs.*" "workers" 0) ∈ trace := by
  have hStart :
      ((lts Bool).restrict Unhindered).Reachable []
        State.start := Lts.Reachable.initial rfl
  have hJoined := worker_joins (worker_joins hStart
    (rfl : State.start.instances false = _))
    (rfl : State.instances (State.set _ false _) true = _)
  have hSame :
      ({ (State.start.set false ⟨0, workerLoop⟩).set true
            ⟨0, workerLoop⟩ with
          published := [jobFrame] } : State Bool) =
        jobPublished := by
    refine congrArg (State.mk [jobFrame]) (funext ?_)
    intro i
    cases i <;> rfl
  have hPublished := hJoined.step
    ⟨@Step.publish Bool _ _ false
      FiniteMap.Iteration.identity "jobs.a" [] none, trivial⟩
  refine ⟨_, hSame ▸ hPublished, ?_⟩
  intro i
  cases i <;> simp

/- A job that goes to two workers. -/
theorem job_sent_to_both :
    ∃ trace s frame,
      ((lts Bool).restrict Unhindered).Reachable trace s ∧
        s.frame? 0 = some frame ∧
        wildcardMatch "jobs.*" frame.subject = true ∧
        Delivered trace "jobs.*" "workers" 0 (false, 0) ∧
        Delivered trace "jobs.*" "workers" 0 (true, 0) := by
  rcases jobPublished_reachable with ⟨trace, hReach, hMem⟩
  rcases worker_passes hReach rfl
      (rfl : jobPublished.instances false = _) with
    ⟨message, result, sent, new, hRouted, hSent⟩
  have hIdle :
      (jobPublished.set false new).instances true =
        ⟨0, workerLoop⟩ := by
    rw [set_of_ne _ _ (by decide)]
    rfl
  rcases worker_passes hRouted rfl hIdle with
    ⟨message', result', sent', new', hRouted', hSent'⟩
  rcases job_decoded with ⟨frame, hJob, hDecoded⟩
  refine ⟨_, _, frame, hRouted', ?_, ?_, ?_, ?_⟩
  · rw [frame?_eq rfl]
    exact hDecoded
  · rw [hJob]
    decide
  · refine ⟨_, _, message, result, sent,
      (List.append_assoc _ _ _).trans
        (List.append_assoc _ _ _), ?_, hSent⟩
    simp [hMem]
  · exact ⟨_, [], message', result', sent', rfl,
      by simp [hMem], hSent'⟩

/- Both workers get the job, which is one too many. -/
theorem group_not_exclusive :
    ∃ trace s frame,
      ((lts Bool).restrict Unhindered).Reachable trace s ∧
        s.frame? 0 = some frame ∧
        wildcardMatch "jobs.*" frame.subject = true ∧
        ¬ ∃! member,
          Delivered trace "jobs.*" "workers" 0 member := by
  rcases job_sent_to_both with
    ⟨trace, s, frame, hReach, hFrame, hMatch, hFirst, hSecond⟩
  refine ⟨trace, s, frame, hReach, hFrame, hMatch, ?_⟩
  intro hUnique
  have hSame := hUnique.unique hFirst hSecond
  cases hSame

/- On each of the two buses, one worker gets the job. -/
theorem group_served_by_each_instance_workers :
    ∃ trace s frame,
      ((lts Bool).restrict Unhindered).Reachable trace s ∧
        s.frame? 0 = some frame ∧
        ∀ i, ∃! channel,
          Delivered trace "jobs.*" "workers" 0 (i, channel) := by
  rcases job_sent_to_both with
    ⟨trace, s, frame, hReach, hFrame, hMatch, hFirst, hSecond⟩
  refine ⟨trace, s, frame, hReach, hFrame, ?_⟩
  intro i
  apply (group_served_by_each_instance hReach hFrame hMatch).2.1
  cases i with
  | false => exact HasMember.of_delivered hFirst
  | true => exact HasMember.of_delivered hSecond

end RedisChannel

end Bus

end Qanat
