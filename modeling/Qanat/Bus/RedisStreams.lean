import Qanat.Bus.FanoutStream
import Qanat.Bus.RedisGroups

/-
  What the streams of fanout subscribers yield on the buses
  of a Redis channel.

  A stream yields messages of the channel in the order of the
  channel, on whichever bus it is.  If the streams have room,
  it leaves none out that its bus has routed since.

  Main declarations:
    * `Event.heardAt?`, `State.IsAt`
    * `heardAt_increasing`
    * `streams_follow_the_channel`
-/

------------------------------------------------------------
-- Frames That Are Heard
------------------------------------------------------------

namespace Qanat

namespace Bus

namespace RedisChannel

open Transition
open LocalRouter (ChannelId)
open ReceiveLoop (decoded? IsMessageOf)

variable {ι : Type} [DecidableEq ι]

/- The position of a matching frame that a bus delivers. -/
def Event.heardAt? (i : ι) (pattern : String) :
    Event ι → Option Nat
| .routed j position message (.ok ()) _ =>
    if j = i ∧
        wildcardMatch pattern message.envelope.subject then
      some position
    else
      none
| _ => none

/- What the router of one bus sees of a run. -/
def routerEvents (i : ι) (trace : List (Event ι)) :
    List (LocalRouter.Event RawMessage) :=
  (trace.filterMap (Event.at? i)).filterMap
    ReceiveLoop.Event.router?

/- The message was rebuilt from the frame at the position. -/
def State.IsAt
    (s : State ι) (pattern : String)
    (position : Nat) (message : RawMessage) : Prop :=
  ∃ frame, s.frame? position = some frame ∧
    wildcardMatch pattern frame.subject = true ∧
      IsMessageOf frame message

theorem heardAt?_eq_some_iff
    {i : ι} {pattern : String} {e : Event ι}
    {position : Nat} :
    e.heardAt? i pattern = some position ↔
      ∃ message sent,
        e = .routed i position message (.ok ()) sent ∧
          wildcardMatch pattern message.envelope.subject =
            true := by
  constructor
  · intro hHeard
    unfold Event.heardAt? at hHeard
    split at hHeard
    · rename_i j other message sent
      split at hHeard
      · rename_i hHere
        cases hHeard
        rcases hHere with ⟨rfl, hMatch⟩
        exact ⟨message, sent, rfl, hMatch⟩
      · cases hHeard
    · cases hHeard
  · rintro ⟨message, sent, rfl, hMatch⟩
    exact if_pos ⟨rfl, hMatch⟩

/- Every bus delivers frames in the order of the channel. -/
theorem heardAt_increasing
    {trace : List (Event ι)} {s : State ι}
    (hReach : (lts ι).Reachable trace s)
    (i : ι) (pattern : String) :
    (trace.filterMap (Event.heardAt? i pattern)).Pairwise
      (· < ·) := by
  induction hReach with
  | initial => exact List.Pairwise.nil
  | @step trace s s' e hReach hStep ih =>
      rw [List.filterMap_append, List.pairwise_append]
      refine ⟨ih, ?_, ?_⟩
      · cases hHeard : e.heardAt? i pattern with
        | none => simp [hHeard]
        | some position => simp [hHeard]
      · intro position hOld next hNew
        rcases List.mem_filterMap.mp hOld with
          ⟨before, hBefore, hHeard⟩
        rcases List.mem_filterMap.mp hNew with
          ⟨now, hNow, hHears⟩
        rw [List.mem_singleton] at hNow
        subst hNow
        rcases heardAt?_eq_some_iff.mp hHeard with
          ⟨_, _, rfl, _⟩
        rcases heardAt?_eq_some_iff.mp hHears with
          ⟨message, _, rfl, _⟩
        have hPassed :=
          ((synced_of_reachable hReach).routed _ _ _ _ _
            hBefore).1
        cases hStep with
        | route hReceived hLoop =>
            -- the frame that is routed now is not passed yet
            have hBound := hPassed.1
            rw [hReceived] at hBound
            apply Nat.lt_of_le_of_ne (Nat.le_of_lt_succ hBound)
            rintro rfl
            have hIdle := hPassed.2 hReceived.symm
            rw [hLoop.of_routed.1] at hIdle
            cases hIdle

end RedisChannel

end Bus

end Qanat

------------------------------------------------------------
-- Streams and the Channel
------------------------------------------------------------

namespace Qanat

namespace Bus

namespace RedisChannel

open Transition
open LocalRouter (ChannelId)
open ReceiveLoop (decoded? IsMessageOf)

variable {ι : Type} [DecidableEq ι]
variable {trace earlier later : List (Event ι)}
variable {s : State ι} {i : ι}
variable {pattern : String} {channel : ChannelId}

theorem subject_of_isMessageOf
    {frame : Wire.DecodedFrame} {message : RawMessage}
    (hMessage : IsMessageOf frame message) :
    message.envelope.subject = frame.subject := by
  rcases hMessage with ⟨_, _, _, rfl⟩
  rfl

/- What a bus routes is what its router dispatches. -/
theorem rel_heard
    (hReach : (lts ι).Reachable trace s)
    (pattern : String) {e : Event ι} (hMem : e ∈ trace) :
    Option.Rel (s.IsAt pattern) (e.heardAt? i pattern)
      ((e.at? i).bind (fun event =>
        event.router?.bind
          (LocalRouter.Event.matched? pattern))) := by
  cases e with
  | published => exact .none
  | received j bytes =>
      by_cases hHere : j = i
      · simp only [Event.at?, if_pos hHere]
        exact .none
      · simp only [Event.at?, if_neg hHere]
        exact .none
  | client j event =>
      by_cases hHere : j = i
      · simp only [Event.at?, if_pos hHere]
        cases event with
        | dispatched subject message result =>
            rcases hReach.step_of_mem hMem with
              ⟨_, _, r, r', _, _, hStep⟩
            cases hStep with
            | client hLoop =>
                cases hLoop with
                | client _ hOther =>
                    exact absurd rfl (hOther _ _ _)
        | _ => exact .none
      · simp only [Event.at?, if_neg hHere]
        exact .none
  | routed j position message result sent =>
      by_cases hHere : j = i
      · subst hHere
        simp only [Event.at?, if_pos]
        cases result with
        | error error => exact .none
        | ok value =>
            by_cases hMatch :
                wildcardMatch pattern
                  message.envelope.subject = true
            · have hFound :=
                ((synced_of_reachable hReach).routed _ _ _ _ _
                  hMem).2
              rcases hFound with ⟨frame, hFrame, hMessage⟩
              have hSubject := subject_of_isMessageOf hMessage
              simp only [Event.heardAt?,
                ReceiveLoop.Event.router?,
                LocalRouter.Event.matched?, hMatch, if_pos,
                and_self, Option.bind_some]
              exact .some
                ⟨frame, hFrame, hSubject ▸ hMatch, hMessage⟩
            · simp [Event.heardAt?,
                ReceiveLoop.Event.router?,
                LocalRouter.Event.matched?, hMatch]
      · cases result with
        | error error =>
            simp only [Event.at?, if_neg hHere]
            exact .none
        | ok value =>
            simp [Event.at?, Event.heardAt?, hHere]

/- The stream of a fanout subscriber on one bus. -/
theorem stream_of_subscribed
    (hReach : (lts ι).Reachable trace s)
    {queue : List RawMessage}
    (hTrace :
      trace =
        earlier ++ .client i (.subscribed pattern channel) ::
          later)
    (hOpen :
      (s.instances i).loop.router.channels[channel]? =
        some ⟨true, queue⟩) :
    LocalRouter.receivedFrom channel (routerEvents i trace) ++
        queue =
      (routerEvents i later).filterMap
        (LocalRouter.Event.matched? pattern) := by
  have hRouter := router_reachable hReach i
  apply (LocalRouter.fanout_stream_law hRouter).1
    (routerEvents i earlier) _ pattern channel queue _ hOpen
  simp [hTrace, routerEvents, Event.at?,
    ReceiveLoop.Event.router?]

/- A frame that finds room is delivered. -/
theorem ok_of_unhindered
    {s' : State ι} {position : Nat} {message : RawMessage}
    {result : Except BusError Unit} {sent : List ChannelId}
    (hReach : (lts ι).Reachable trace s)
    (hStep :
      Step s (.routed i position message result sent) s')
    (hRoom :
      Unhindered s (.routed i position message result sent)) :
    result = .ok () := by
  cases hStep with
  | route _ hLoop =>
      rw [hLoop.of_routed.2.1]
      have hCons := LocalRouter.consistent_of_reachable
        (router_reachable hReach i)
      exact (hCons.dispatch_ok_iff _ message).mpr
        (fun id _ c _ => hRoom c)

/-
  Of two parts of a run with room one has delivered the frame
  that the bus has passed.
-/
theorem routed_before_iff
    (hReach : ((lts ι).restrict Unhindered).Reachable trace s)
    (hTrace :
      trace =
        earlier ++ .client i (.subscribed pattern channel) ::
          later)
    {position : Nat} {frame : Wire.DecodedFrame}
    (hPassed : s.Passed i position)
    (hFrame : s.frame? position = some frame)
    (hMatch : wildcardMatch pattern frame.subject = true) :
    (i, position) ∈ earlier.filterMap Event.routedAt? ↔
      position ∉
        later.filterMap (Event.heardAt? i pattern) := by
  have hSynced := synced_of_reachable hReach.of_restrict
  have hSplit :
      trace.filterMap Event.routedAt? =
        earlier.filterMap Event.routedAt? ++
          later.filterMap Event.routedAt? := by
    rw [hTrace, List.filterMap_append,
      List.filterMap_cons_none rfl]
  constructor
  · intro hEarlier hHeard
    rcases List.mem_filterMap.mp hHeard with ⟨e, hMem, hHere⟩
    rcases heardAt?_eq_some_iff.mp hHere with ⟨_, _, rfl, _⟩
    have hLater :
        (i, position) ∈ later.filterMap Event.routedAt? :=
      List.mem_filterMap.mpr ⟨_, hMem, rfl⟩
    have hOnce := hSynced.once
    rw [hSplit] at hOnce
    exact List.disjoint_of_nodup_append hOnce hEarlier hLater
  · intro hUnheard
    have hRouted :=
      hSynced.complete i position frame hPassed hFrame
    rw [hSplit] at hRouted
    rcases List.mem_append.mp hRouted with hEarlier | hLater
    · exact hEarlier
    · rcases List.mem_filterMap.mp hLater with
        ⟨e, hMem, hHere⟩
      cases e with
      | routed j other message result sent =>
          cases hHere
          have hInTrace :
              Event.routed i position message result sent ∈
                trace := by
            rw [hTrace]
            exact List.mem_append_right _
              (List.mem_cons_of_mem _ hMem)
          rcases (hSynced.routed _ _ _ _ _ hInTrace).2 with
            ⟨found, hFound, hMessage⟩
          rw [hFrame, Option.some.injEq] at hFound
          subst hFound
          rcases hReach.step_of_mem hInTrace with
            ⟨_, _, r, r', _, hBefore, hStep, hRoom⟩
          have hOk :=
            ok_of_unhindered hBefore.of_restrict hStep hRoom
          subst hOk
          have hSubject := subject_of_isMessageOf hMessage
          refine absurd ?_ hUnheard
          exact List.mem_filterMap.mpr ⟨_, hMem,
            heardAt?_eq_some_iff.mpr
              ⟨message, sent, rfl, hSubject ▸ hMatch⟩⟩
      | _ => cases hHere

/-
  What a fanout subscriber has received and what is queued
  for it are the messages of frames of the channel, in the
  order of the channel: those that match and that its bus has
  delivered since the subscription.  If all streams are open
  and have room, these are all matching frames that the bus
  has passed since.
-/
theorem streams_follow_the_channel
    (hReach : (lts ι).Reachable trace s)
    {queue : List RawMessage}
    (hTrace :
      trace =
        earlier ++ .client i (.subscribed pattern channel) ::
          later)
    (hOpen :
      (s.instances i).loop.router.channels[channel]? =
        some ⟨true, queue⟩) :
    ∃ positions : List Nat,
      positions.Pairwise (· < ·) ∧
      List.Forall₂ (s.IsAt pattern) positions
        (LocalRouter.receivedFrom channel
            (routerEvents i trace) ++ queue) ∧
      (∀ position, position ∈ positions ↔
        ∃ message sent,
          .routed i position message (.ok ()) sent ∈ later ∧
            wildcardMatch pattern
              message.envelope.subject = true) ∧
      (((lts ι).restrict Unhindered).Reachable trace s →
        ∀ position frame,
          s.Passed i position →
          s.frame? position = some frame →
          wildcardMatch pattern frame.subject = true →
            ((i, position) ∈
                earlier.filterMap Event.routedAt? ↔
              position ∉ positions)) := by
  have hHeard : ∀ position,
      position ∈ later.filterMap (Event.heardAt? i pattern) ↔
        ∃ message sent,
          Event.routed i position message (.ok ()) sent ∈
              later ∧
            wildcardMatch pattern
              message.envelope.subject = true := by
    intro position
    rw [List.mem_filterMap]
    constructor
    · rintro ⟨e, hMem, hHere⟩
      rcases heardAt?_eq_some_iff.mp hHere with
        ⟨message, sent, rfl, hMatch⟩
      exact ⟨message, sent, hMem, hMatch⟩
    · rintro ⟨message, sent, hMem, hMatch⟩
      exact ⟨_, hMem,
        heardAt?_eq_some_iff.mpr ⟨message, sent, rfl, hMatch⟩⟩
  refine ⟨later.filterMap (Event.heardAt? i pattern), ?_, ?_,
    hHeard, ?_⟩
  · have hPart : later.Sublist trace := by
      rw [hTrace]
      exact (List.sublist_cons_self _ _).trans
        (List.sublist_append_right _ _)
    exact List.Pairwise.sublist (hPart.filterMap _)
      (heardAt_increasing hReach i pattern)
  · rw [stream_of_subscribed hReach hTrace hOpen,
      routerEvents, List.filterMap_filterMap,
      List.filterMap_filterMap]
    apply List.rel_filterMap (R := fun a b => a = b ∧ a ∈ later)
    · rintro e _ ⟨rfl, hMem⟩
      have hLater : e ∈ trace := by
        rw [hTrace]
        exact List.mem_append_right _
          (List.mem_cons_of_mem _ hMem)
      exact rel_heard hReach pattern hLater
    · exact List.forall₂_same.mpr (fun e hMem => ⟨rfl, hMem⟩)
  · intro hRoom position frame hPassed hFrame hMatch
    exact routed_before_iff hRoom hTrace hPassed hFrame hMatch

/- A bus with a listener that has heard nothing yet. -/
def listenerRouter : LocalRouter.State RawMessage where
  router :=
    { bindings :=
        [{ subjectPattern := "jobs.*"
           queue := none
           consumers := [1]
           rrIndex := 0 }]
      nextId := 2 }
  senders :=
    (∅ : AList (fun _ : ConsumerId =>
      ChannelId)).insert 1 0
  channels := [LocalRouter.Channel.new]

theorem listener_not_crowded (channel : ChannelId) :
    ¬ LocalRouter.Crowded listenerRouter.channels channel :=
  LocalRouter.not_crowded_of_forall (by decide) channel

def mailFrame : Bytes :=
  Redis.publishBytes FiniteMap.Iteration.identity "mails.b" []
    none

def nextJobFrame : Bytes :=
  Redis.publishBytes FiniteMap.Iteration.identity "jobs.c" []
    none

/- A client of one bus acts on its router. -/
theorem exists_client
    {s : State ι} {before router : LocalRouter.State RawMessage}
    (event : LocalRouter.Event RawMessage)
    (hReach : ((lts ι).restrict Unhindered).Reachable trace s)
    (hRouter : (s.instances i).loop.router = before)
    (hStep : LocalRouter.Step before event router)
    (hClient : ∀ subject message result,
      event ≠ .dispatched subject message result)
    (hKept : Unhindered s (.client i event)) :
    ∃ s' : State ι,
      ((lts ι).restrict Unhindered).Reachable
          (trace ++ [.client i event]) s' ∧
        s'.published = s.published ∧
        (s'.instances i).received = (s.instances i).received ∧
        (s'.instances i).loop.routing =
          (s.instances i).loop.routing ∧
        (s'.instances i).loop.router = router := by
  subst hRouter
  have hMove := hReach.step
    ⟨Step.client (ReceiveLoop.Step.client hStep hClient), hKept⟩
  refine ⟨_, hMove, rfl, ?_, ?_, ?_⟩
  all_goals rw [set_self]

/- The bus has passed a job when its first listener joins. -/
theorem listener_joined :
    ∃ message result sent, ∃ s : State Bool,
      ((lts Bool).restrict Unhindered).Reachable
          [.published true jobFrame, .received false jobFrame,
            .routed false 0 message result sent,
            .client false (.subscribed "jobs.*" 0)] s ∧
        s.published = [jobFrame] ∧
        (s.instances false).received = 1 ∧
        (s.instances false).loop.routing = none ∧
        (s.instances false).loop.router = listenerRouter := by
  rcases job_decoded with ⟨job, hJob, hDecoded⟩
  have hStart :
      ((lts Bool).restrict Unhindered).Reachable []
        State.start := Lts.Reachable.initial rfl
  have hPublished := hStart.step
    ⟨@Step.publish Bool _ _ true FiniteMap.Iteration.identity
      "jobs.a" [] none, trivial⟩
  rcases @exists_passed Bool _ _ _ false 0 _ _ _ hPublished
      rfl rfl rfl hDecoded rfl
      (LocalRouter.not_crowded_of_forall nofun) with
    ⟨message, result, sent, bus, _, hPassed, hReceived, hIdle,
      hDispatch, _⟩
  rw [hJob] at hDispatch
  have hRouter : bus.loop.router = LocalRouter.State.start :=
    congrArg Prod.fst hDispatch
  rcases exists_client (.subscribed "jobs.*" 0) hPassed
      ((congrArg (fun b => b.loop.router)
        (set_self _ false bus)).trans hRouter)
      (@LocalRouter.Step.subscribe RawMessage
        LocalRouter.State.start "jobs.*") (by simp) trivial with
    ⟨s, hJoined, hSame, hReceived', hIdle', hListens⟩
  rw [set_self] at hReceived' hIdle'
  exact ⟨message, result, sent, s, hJoined, hSame,
    hReceived'.trans hReceived, hIdle'.trans hIdle, hListens⟩

/-
  Of a job that the bus has passed before, a mail and another
  job, a listener receives the third one.
-/
theorem streams_follow_the_channel_listener :
    ∃ (trace : List (Event Bool)) (s : State Bool)
      (message : RawMessage),
      ((lts Bool).restrict Unhindered).Reachable trace s ∧
        s.published = [jobFrame, mailFrame, nextJobFrame] ∧
        LocalRouter.receivedFrom 0 (routerEvents false trace) =
          [message] ∧
        List.Forall₂ (s.IsAt "jobs.*") [2] [message] := by
  rcases listener_joined with
    ⟨_, _, _, s, hJoined, hPublished, hReceived, hIdle,
      hListens⟩
  rcases ReceiveLoop.decoded_of_fits
      (by decide +kernel : Wire.Fits "mails.b" none)
      FiniteMap.Iteration.identity [] with
    ⟨mail, hMail, _, hMailDecoded⟩
  rcases ReceiveLoop.decoded_of_fits
      (by decide +kernel : Wire.Fits "jobs.c" none)
      FiniteMap.Iteration.identity [] with
    ⟨job, hJob, _, hJobDecoded⟩
  have hMails := hJoined.step
    ⟨@Step.publish Bool _ _ false FiniteMap.Iteration.identity
      "mails.b" [] none, trivial⟩
  have hJobs := hMails.step
    ⟨@Step.publish Bool _ _ true FiniteMap.Iteration.identity
      "jobs.c" [] none, trivial⟩
  rw [hPublished] at hJobs
  -- the listener does not match the mail
  rcases @exists_passed Bool _ _ _ false 1 _ _ _ hJobs hIdle
      hReceived rfl hMailDecoded hListens
      listener_not_crowded with
    ⟨_, _, _, bus, _, hMailed, hReceived', hIdle', hDispatch, _⟩
  rw [hMail] at hDispatch
  have hStill : bus.loop.router = listenerRouter :=
    congrArg Prod.fst hDispatch
  have hHere (s : State Bool) := set_self s false bus
  rcases @exists_passed Bool _ _ _ false 2 _ _ _ hMailed
      (by rw [hHere, hIdle']) (by rw [hHere, hReceived']) rfl
      hJobDecoded (by rw [hHere, hStill])
      listener_not_crowded with
    ⟨message, result, sent, bus', hSubject, hSent, _, _,
      hDispatch', _⟩
  rw [hJob] at hDispatch'
  have hRouter := congrArg Prod.fst hDispatch'
  have hOk : result = .ok () := congrArg Prod.snd hDispatch'
  subst hOk
  rcases exists_client (.received 0 message) hSent
      ((congrArg (fun b => b.loop.router)
        (set_self _ false bus')).trans hRouter)
      (@LocalRouter.Step.receive _ _ 0 message [] rfl)
      (by simp) trivial with
    ⟨t, hTaken, hPublished', _, _, hAfter⟩
  rcases streams_follow_the_channel hTaken.of_restrict
      (rfl : _ = [_, _, _] ++ _ :: _)
      (congrArg (fun r => r.channels[0]?) hAfter) with
    ⟨positions, _, hRel, hHeard, _⟩
  change List.Forall₂ _ positions [message] at hRel
  rcases List.forall₂_cons_right_iff.mp hRel with
    ⟨position, rest, _, hRest, rfl⟩
  rw [List.forall₂_nil_right_iff] at hRest
  subst hRest
  have hThird := (hHeard 2).mpr
    ⟨message, sent, by simp, by rw [hSubject, hJob]; decide⟩
  rw [← List.mem_singleton.mp hThird] at hRel
  exact ⟨_, t, message, hTaken, hPublished', rfl, hRel⟩

end RedisChannel

end Bus

end Qanat
