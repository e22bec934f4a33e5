import Mathlib.Data.List.Induction
import Qanat.Router.Install.Completion

/-
  A partitioned route does to the messages of each key what
  an unpartitioned route does to these messages.

  Main declarations:
    * `PartitionedRoute.messagesOf`
    * `Install.routeEffects_mono`
    * `Install.routeEffects_of_ended`
    * `Install.Refines`
    * `Install.partitioned_refines_unpartitioned`
-/

------------------------------------------------------------
-- Messages of a Key
------------------------------------------------------------

namespace Qanat

namespace Router

open Transition Interleaving

variable {Value : Type}

namespace PartitionedRoute

/- The effects that processing a message has. -/
def effectsAt
    (route : PartitionedRoute Value) (position : Nat) :
    List RouteEffect :=
  match route.messages[position]? with
  | some message => (route.process position message).effects
  | none => []

/- Those of the given messages that have the key. -/
def withKey
    (route : PartitionedRoute Value) (key : String)
    (positions : List Nat) : List Nat :=
  positions.filter
    (fun position => route.key? position = some key)

/- The messages of a key in the order of the source. -/
def messagesOf
    (route : PartitionedRoute Value) (key : String) :
    List RouteMessage :=
  (route.withKey key
    (List.range route.messages.length)).filterMap
      (fun position => route.messages[position]?)

theorem withKey_mono
    (route : PartitionedRoute Value) (key : String)
    {m n : Nat}
    (hBound : m ≤ n) :
    route.withKey key (List.range m) <+:
      route.withKey key (List.range n) := by
  rcases Nat.exists_eq_add_of_le hBound with ⟨d, rfl⟩
  rw [List.range_add]
  exact (List.prefix_append _ _).filter _

/- The assignments of a key are the messages that have it. -/
theorem assignments_filter
    (route : PartitionedRoute Value) (key : String)
    (n : Nat) :
    ((route.assignments n).filter
        (fun e => e.2 = key)).map Prod.fst =
      route.withKey key (List.range n) := by
  unfold assignments withKey
  induction List.range n with
  | nil => rfl
  | cons position rest ih =>
      cases hKey : route.key? position with
      | none => simp [hKey, ih]
      | some k =>
          by_cases hSame : k = key
          · simp [hKey, hSame, ih]
          · simp [hKey, hSame, ih]

end PartitionedRoute

/- All elements of a list, taken by their positions. -/
theorem filterMap_getElem?_range
    {α : Type} (l : List α) :
    (List.range l.length).filterMap
      (fun position => l[position]?) = l := by
  induction l using List.reverseRecOn with
  | nil => rfl
  | append_singleton front a ih =>
      have hFront :
          (List.range front.length).filterMap
              (fun position => (front ++ [a])[position]?) =
            (List.range front.length).filterMap
              (fun position => front[position]?) := by
        apply List.filterMap_congr
        intro position hMem
        rw [List.getElem?_append_left
          (List.mem_range.mp hMem)]
      rw [List.length_append, List.length_singleton,
        List.range_succ, List.filterMap_append, hFront, ih]
      simp

/- The unpartitioned loop processes message after message. -/
theorem runUnpartitioned_positions
    {route : PartitionedRoute Value}
    {binding : RouteBinding Value}
    (hBinding : ∀ position, route.binding position = binding)
    (hReturns :
      ∀ message ∈ route.messages, ¬ binding.Unwinds message)
    (positions : List Nat) :
    runUnpartitioned binding
        (positions.filterMap
          (fun position => route.messages[position]?)) =
      ⟨positions.flatMap route.effectsAt, some ()⟩ := by
  unfold runUnpartitioned
  rw [Logged.forM_of_returns]
  · congr 1
    induction positions with
    | nil => rfl
    | cons position rest ih =>
        rw [List.flatMap_cons, ← ih]
        unfold PartitionedRoute.effectsAt
          PartitionedRoute.process
        cases hMessage : route.messages[position]? with
        | none => simp [hMessage]
        | some message => simp [hMessage, hBinding]
  · intro message hMem
    rcases List.mem_filterMap.mp hMem with
      ⟨position, _, hMessage⟩
    exact (settled_of_returns (hReturns message
      (List.mem_of_getElem? hMessage))).1

end Router

end Qanat

------------------------------------------------------------
-- Effects of a Key
------------------------------------------------------------

namespace Qanat

namespace Router

namespace Install

open Transition Interleaving
open Partitioner (CallId queuedCalls domainEffects)

variable {Value : Type} {route : PartitionedRoute Value}
variable {config : Partitioner.BoundedConfig}

/- The work of calls is that on the messages they are for. -/
theorem routed_work
    {s : State} {subs : List Submission}
    (hCarried : ∀ sub ∈ subs, s.Carries route sub) :
    (tagged s.domain.work
        (subs.map Submission.call)).filterMap
          (fun e => routed? e.2) =
      tagged route.effectsAt
        (subs.map Submission.position) := by
  induction subs with
  | nil => rfl
  | cons sub rest ih =>
      rcases (hCarried sub (by simp)).work with
        ⟨message, hMessage, hWork⟩
      rw [List.map_cons, List.map_cons, tagged_cons,
        tagged_cons, List.filterMap_append,
        ih (fun other hMem => hCarried other (by simp [hMem])),
        hWork]
      congr 1
      simp [List.filterMap_map, routed?, Function.comp_def,
        PartitionedRoute.effectsAt, hMessage]

/- The positions a route has submitted under a key. -/
theorem Ledger.positions
    {trace : List Event} {s : State}
    (hLedger : Ledger route trace s)
    (key : String) :
    ((submissions trace).filter
        (fun sub => sub.key = key)).map
          Submission.position =
      route.withKey key (List.range s.position) := by
  rw [← PartitionedRoute.assignments_filter,
    ← hLedger.assigned, List.filter_map, List.map_map]
  rfl

/- Jobs of other tasks do nothing to the route's messages. -/
theorem routed_filter_own
    {trace : List Event} {s : State}
    (hReach : (lts route config).Reachable trace s)
    (key : String) :
    (domainEffects key (domainEvents trace)).filterMap
        (fun e => routed? e.2) =
      ((domainEffects key (domainEvents trace)).filter
        (fun e => decide (e.1 ∈ callsOf key trace))).filterMap
          (fun e => routed? e.2) := by
  rw [List.filterMap_filter]
  apply List.filterMap_congr
  rintro ⟨c, effect⟩ hMem
  rcases submission_of_performed hReach
      (Partitioner.mem_domainEffects_iff.mp hMem) with
    ⟨sub, hSub, hKey, hCall, _⟩ | ⟨_, hOrigin⟩
  · have hOwn : c ∈ callsOf key trace :=
      mem_callsOf_iff.mpr ⟨sub, hSub, hKey, hCall⟩
    simp [hOwn]
  · simp [routed?, hOrigin]

/- All jobs but that of the current call have been queued. -/
theorem queued_of_dropLast
    {trace : List Event} {s : State}
    (hReach : (lts route config).Reachable trace s)
    {key : String} {c : CallId}
    (hMem : c ∈ (callsOf key trace).dropLast) :
    c ∈ queuedCalls key (domainEvents trace) := by
  have hLedger := ledger_of_reachable hReach
  have hChron := Partitioner.chronicle_of_reachable
    (domain_reachable hReach)
  rcases mem_callsOf_iff.mp (List.dropLast_subset _ hMem) with
    ⟨sub, hSub, rfl, rfl⟩
  rcases hLedger.carried sub hSub with
    ⟨call, _, hCall, _, hKey, _, hPhase⟩
  rcases hPhase with hReturned | ⟨hNow, _⟩
  · have hSent : call.phase.HasSent := by
      rw [hReturned]
      trivial
    have hQueued := hChron.sent_queued _ call hCall hSent
    rw [hKey] at hQueued
    exact Partitioner.mem_queuedCalls_iff.mpr
      ⟨_, hQueued, rfl⟩
  · rcases hLedger.last_of_submitting hSub hNow with
      ⟨front, hLast, hOnce⟩
    rw [hLast, List.dropLast_concat] at hMem
    exact absurd hMem hOnce

/- The effects of a key are the beginning of its work. -/
theorem domainEffects_mono
    {events : List (Partitioner.Event JobEffect)}
    {domain : Partitioner.State JobEffect}
    (hReach :
      (Partitioner.lts JobEffect config).Reachable events
        domain)
    (key : String) :
    domainEffects key events <+:
      tagged domain.work (queuedCalls key events) := by
  rcases Partitioner.domainEffects_of_reachable hReach key with
    ⟨done, waiting, current, past, hServed, hEffects, hPast⟩
  rw [hEffects, hServed.queued, tagged_append, tagged_append]
  cases current with
  | none =>
      simp only [Option.toList_none]
      rw [List.append_assoc]
      exact (List.prefix_append_right_inj _).mpr
        List.nil_prefix
  | some c =>
      rw [List.append_assoc]
      refine (List.prefix_append_right_inj _).mpr ?_
      refine List.IsPrefix.trans ?_ (List.prefix_append _ _)
      simp only [Option.toList_some, tagged_cons]
      simpa [tagged] using (hPast c rfl).map (fun a => (c, a))

/-
  At any time a route has done to the messages of a key the
  first things that processing them one by one does.
-/
theorem routeEffects_mono
    {trace : List Event} {s : State}
    (hReach : (lts route config).Reachable trace s)
    (key : String) :
    (routeEffects trace).filter
        (fun e => route.key? e.1 = some key) <+:
      tagged route.effectsAt
        (route.withKey key
          (List.range route.messages.length)) := by
  have hLedger := ledger_of_reachable hReach
  have hOwn :
      (queuedCalls key (domainEvents trace)).filter
          (fun c => decide (c ∈ callsOf key trace)) <+:
        callsOf key trace :=
    (hLedger.agree key).filter_mono
      (fun c hMem => queued_of_dropLast hReach hMem)
  have hWork :=
    (domainEffects_mono (domain_reachable hReach) key).filter
      (fun e => decide (e.1 ∈ callsOf key trace))
  rw [filter_tagged s.domain.work _
    (fun c => decide (c ∈ callsOf key trace))] at hWork
  have hRouted :=
    (hWork.trans (tagged_mono hOwn _)).filterMap
      (fun e => routed? e.2)
  unfold callsOf at hRouted
  rw [routed_work (fun sub hSub => hLedger.carried sub
      (List.mem_filter.mp hSub).1), hLedger.positions]
    at hRouted
  rw [routeEffects_filter hReach, routed_filter_own hReach]
  exact hRouted.trans (tagged_mono
    (route.withKey_mono key hLedger.position_le) _)

/- When the route has ended, it has done all of them. -/
theorem routeEffects_of_ended
    {trace : List Event} {s : State}
    (hReach : (lts route config).Reachable trace s)
    (hEnded : s.phase = .ended)
    (key : String) :
    (routeEffects trace).filter
        (fun e => route.key? e.1 = some key) =
      tagged route.effectsAt
        (route.withKey key
          (List.range route.messages.length)) := by
  have hDomain := domain_reachable hReach
  have hLedger := ledger_of_reachable hReach
  rcases completed_of_ended hReach hEnded with
    ⟨_, hAll, hCompleted⟩
  have hFinished :
      ∀ c ∈ callsOf key trace,
        Partitioner.Event.finished key c ∈
          domainEvents trace := by
    intro c hMem
    rcases mem_callsOf_iff.mp hMem with ⟨sub, hSub, rfl, rfl⟩
    rcases List.append_of_mem (hCompleted sub hSub) with
      ⟨earlier, later, hSplit⟩
    rw [hSplit]
    exact List.mem_append_left _
      (Partitioner.finished_before_completed hDomain hSplit)
  have hQueued :
      ∀ c ∈ callsOf key trace,
        c ∈ queuedCalls key (domainEvents trace) :=
    fun c hMem =>
      (Partitioner.call_of_started hDomain
        (Partitioner.started_of_finished hDomain
          (hFinished c hMem))).1
  have hEffects := Partitioner.domainEffects_of_all_finished
    hDomain (p := fun c => decide (c ∈ callsOf key trace))
    (fun c _ hOwn => hFinished c (by simpa using hOwn))
  rw [routeEffects_filter hReach, routed_filter_own hReach,
    hEffects, (hLedger.agree key).eq_of_subset hQueued]
  unfold callsOf
  rw [routed_work (fun sub hSub => hLedger.carried sub
      (List.mem_filter.mp hSub).1), hLedger.positions, hAll]

/- At the end every message has had its effects. -/
theorem ofTag_of_ended
    {trace : List Event} {s : State}
    (hReach : (lts route config).Reachable trace s)
    (hEnded : s.phase = .ended)
    {position : Nat} {key : String}
    (hBound : position < route.messages.length)
    (hKey : route.key? position = some key) :
    ofTag position (routeEffects trace) =
      route.effectsAt position := by
  rw [← ofTag_filter
      (p := fun i => decide (route.key? i = some key))
      (by simp [hKey]),
    routeEffects_of_ended hReach hEnded]
  apply ofTag_tagged
  · exact List.nodup_range.filter _
  · exact List.mem_filter.mpr
      ⟨List.mem_range.mpr hBound, by simp [hKey]⟩

end Install

end Router

end Qanat

------------------------------------------------------------
-- Refinement
------------------------------------------------------------

namespace Qanat

namespace Router

open Transition Interleaving

variable {Value Args : Type}

/- A typed resolver yields no empty keys. -/
theorem TypedPartitionResolver.key_ne_empty
    {typed : TypedPartitionResolver Value Args}
    {message : RouteMessage} {decoder : Decoder Value}
    {key : String}
    (hResolve : typed.resolve message decoder = .ok key) :
    key ≠ "" := by
  unfold TypedPartitionResolver.resolve at hResolve
  cases hExtract : typed.extract message decoder with
  | error error => simp [hExtract] at hResolve
  | ok input =>
      cases hKey : typed.resolver input with
      | error text => simp [hExtract, hKey] at hResolve
      | ok key' =>
          by_cases hEmpty : key'.isEmpty = true
          · simp [hExtract, hKey, hEmpty] at hResolve
          · simp only [hExtract, hKey, hEmpty] at hResolve
            cases hResolve
            rintro rfl
            exact hEmpty rfl

namespace Install

variable {route : PartitionedRoute Value}
variable {binding : RouteBinding Value}
variable {config : Partitioner.BoundedConfig}

/- A message whose key is resolved has it. -/
theorem exists_key
    (hKeys :
      ∀ position message,
        route.messages[position]? = some message →
          ∃ key, route.resolve position message = .ok key)
    {position : Nat}
    (hBound : position < route.messages.length) :
    ∃ key, route.key? position = some key := by
  have hMessage := List.getElem?_eq_getElem hBound
  rcases hKeys position _ hMessage with ⟨key, hResolve⟩
  exact ⟨key, PartitionedRoute.key?_eq_some_iff.mpr
    ⟨_, hMessage, hResolve⟩⟩

/- All effects of a route that has ended, up to order. -/
theorem routeEffects_perm
    {trace : List Event} {s : State}
    (hReach : (lts route config).Reachable trace s)
    (hEnded : s.phase = .ended)
    (hKeys :
      ∀ position message,
        route.messages[position]? = some message →
          ∃ key, route.resolve position message = .ok key) :
    (routeEffects trace).Perm
      (tagged route.effectsAt
        (List.range route.messages.length)) := by
  have hWork :
      ∀ position ∈ List.range route.messages.length,
        ofTag position (routeEffects trace) =
          route.effectsAt position := by
    intro position hMem
    have hBound := List.mem_range.mp hMem
    rcases exists_key hKeys hBound with ⟨key, hKey⟩
    exact ofTag_of_ended hReach hEnded hBound hKey
  rw [← tagged_congr hWork]
  apply perm_tagged List.nodup_range
  rintro ⟨position, effect⟩ hMem
  exact List.mem_range.mpr
    (Nat.lt_of_lt_of_le (position_of_routeEffect hReach hMem)
      (ledger_of_reachable hReach).position_le)

/- The sequential effects of a key, message after message. -/
theorem runUnpartitioned_messagesOf
    (hBinding : ∀ position, route.binding position = binding)
    (hReturns :
      ∀ message ∈ route.messages, ¬ binding.Unwinds message)
    (key : String) :
    (runUnpartitioned binding
        (route.messagesOf key)).effects =
      (tagged route.effectsAt
        (route.withKey key
          (List.range route.messages.length))).map
            Prod.snd := by
  unfold PartitionedRoute.messagesOf
  rw [runUnpartitioned_positions hBinding hReturns,
    map_snd_tagged]

end Install

end Router

end Qanat

------------------------------------------------------------
-- The End of the Task
------------------------------------------------------------

namespace Qanat

namespace Router

namespace Install

open Transition Interleaving

variable {Value : Type} {route : PartitionedRoute Value}
variable {binding : RouteBinding Value}
variable {config : Partitioner.Config}
variable {trace : List Event} {s : State}

/- The task of the route goes with the event. -/
def Event.Leaves : Event → Prop
| .ended | .unwound _ => True
| _ => False

/- A task that is over has gone with an event. -/
theorem exists_leaves
    (hReach : (lts route config).Reachable trace s)
    (hOver : s.phase.IsOver) :
    ∃ e ∈ trace, e.Leaves := by
  induction hReach with
  | @initial s hStart =>
      have hEq : s = State.start := hStart
      subst hEq
      exact hOver.elim
  | @step trace s s' e hReach hStep ih =>
      have hOld :
          s.phase.IsOver → ∃ e' ∈ trace ++ [e], e'.Leaves := by
        intro hBefore
        rcases ih hBefore with ⟨e', hMem, hLeaves⟩
        exact ⟨e', List.mem_append_left _ hMem, hLeaves⟩
      cases hStep with
      | domain | endSource | see => exact hOld hOver
      | unwindRecovery | unwindSubmission | «end» =>
          exact ⟨_, List.mem_append_right _
            (List.mem_singleton_self _), trivial⟩
      | _ => exact hOver.elim

/- What the task leaves behind when it goes. -/
theorem Step.over_of_leaves
    {s' : State} {e : Event}
    (hStep : Step route config s e s')
    (hLeaves : e.Leaves) :
    s'.phase.IsOver ∧ e.submission? = none ∧
      e.domain? = none ∧ e ≠ .sourceEnded := by
  cases hStep with
  | unwindRecovery | unwindSubmission | «end» =>
      exact ⟨trivial, rfl, rfl, by simp⟩
  | _ => exact hLeaves.elim

/-
  Nobody dies of messages that have keys and of which nothing
  unwinds, if the domain can take their jobs.
-/
theorem ended_of_over
    (hReach : (lts route config).Reachable trace s)
    (hBinding : ∀ position, route.binding position = binding)
    (hKeys :
      ∀ position message,
        route.messages[position]? = some message →
          ∃ key, route.resolve position message = .ok key)
    (hReturns :
      ∀ message ∈ route.messages, ¬ binding.Unwinds message)
    (hFits :
      route.messages = [] ∨
        config.capacity ≤ Partitioner.maxPermits)
    (hOver : s.phase.IsOver) :
    s.phase = .ended := by
  rcases over_of_isOver hReach hOver with
    hEnded | ⟨position, call, message, _, _, hMessage, hCause⟩
  · exact hEnded
  · refine absurd hCause
      (not_died_of_returns ⟨?_, Or.inr ?_⟩ hMessage)
    · rcases hKeys position message hMessage with
        ⟨key, hResolve⟩
      unfold PartitionedRoute.Unwinds
      rw [hResolve, hBinding]
      exact hReturns message (List.mem_of_getElem? hMessage)
    · rcases hFits with hNone | hFits
      · rw [hNone] at hMessage
        cases hMessage
      · exact hFits

/- Everything is done before the task of a route ends. -/
theorem completed_before_leaves
    (hReach : (lts route config).Reachable trace s)
    (hKeys :
      ∀ position message,
        route.messages[position]? = some message →
          ∃ key, route.resolve position message = .ok key)
    (hEnds :
      ∀ trace s, (lts route config).Reachable trace s →
        s.phase.IsOver → s.phase = .ended)
    {earlier later : List Event} {e : Event}
    (hTrace : trace = earlier ++ e :: later)
    (hLeaves : e.Leaves) :
    Event.sourceEnded ∈ earlier ∧
      ∀ position, position < route.messages.length →
        ∃ sub ∈ submissions earlier,
          sub.position = position ∧
            Partitioner.Event.completed sub.key sub.call ∈
              domainEvents earlier := by
  rcases hReach.before hTrace with ⟨r, r', hBefore, hStep⟩
  rcases hStep.over_of_leaves hLeaves with
    ⟨hOver, hSubmission, hDomain, hOther⟩
  have hReach' := hBefore.step hStep
  rcases completed_of_ended hReach'
      (hEnds _ _ hReach' hOver) with
    ⟨hSource, hAll, hCompleted⟩
  have hLedger := ledger_of_reachable hReach'
  rw [submissions_append hSubmission,
    domainEvents_append hDomain] at hCompleted
  refine ⟨?_, ?_⟩
  · rcases List.mem_append.mp hSource with hOld | hNew
    · exact hOld
    · exact absurd (List.mem_singleton.mp hNew).symm hOther
  · intro position hBound
    rcases exists_key hKeys hBound with ⟨key, hKey⟩
    rcases hLedger.submission_of_key (hAll ▸ hBound) hKey with
      ⟨sub, hSub, hPosition, _⟩
    rw [submissions_append hSubmission] at hSub
    exact ⟨sub, hSub, hPosition, hCompleted sub hSub⟩

/-
  What a partitioned route has done to the messages of a key
  are the first effects of the unpartitioned loop over these
  messages, and all of them when its task is over.  The task
  is over after its source has ended and all jobs have
  completed, with the effects of the unpartitioned loop over
  all messages.
-/
structure Refines
    (route : PartitionedRoute Value)
    (binding : RouteBinding Value)
    (trace : List Event) (s : State) : Prop where
  beginning :
    ∀ key,
      ((routeEffects trace).filter
          (fun e => route.key? e.1 = some key)).map Prod.snd <+:
        (runUnpartitioned binding
          (route.messagesOf key)).effects
  ofKey :
    s.phase.IsOver → ∀ key,
      ((routeEffects trace).filter
          (fun e => route.key? e.1 = some key)).map Prod.snd =
        (runUnpartitioned binding
          (route.messagesOf key)).effects
  all :
    s.phase.IsOver →
      ((routeEffects trace).map Prod.snd).Perm
        (runUnpartitioned binding route.messages).effects
  last :
    ∀ earlier e later, trace = earlier ++ e :: later →
      e.Leaves →
        Event.sourceEnded ∈ earlier ∧
          ∀ position, position < route.messages.length →
            ∃ sub ∈ submissions earlier,
              sub.position = position ∧
                Partitioner.Event.completed sub.key sub.call ∈
                  domainEvents earlier

end Install

end Router

end Qanat

------------------------------------------------------------
-- Routes That Refine
------------------------------------------------------------

namespace Qanat

namespace Router

namespace Install

open Transition Interleaving
open Partitioner (smallConfig hugeConfig)

variable {Value : Type} {route : PartitionedRoute Value}
variable {binding : RouteBinding Value}

/- Routes over domains that can make channels refine. -/
theorem refines_of_fits
    {config : Partitioner.BoundedConfig}
    {trace : List Event} {s : State}
    (hReach : (lts route config).Reachable trace s)
    (hBinding : ∀ position, route.binding position = binding)
    (hKeys :
      ∀ position message,
        route.messages[position]? = some message →
          ∃ key, route.resolve position message = .ok key)
    (hReturns :
      ∀ message ∈ route.messages, ¬ binding.Unwinds message) :
    Refines route binding trace s where
  beginning := by
    intro key
    rw [runUnpartitioned_messagesOf hBinding hReturns]
    exact (routeEffects_mono hReach key).map Prod.snd
  ofKey := by
    intro hOver key
    have hEnded := ended_of_over hReach hBinding hKeys
      hReturns (Or.inr config.capacity_le) hOver
    rw [runUnpartitioned_messagesOf hBinding hReturns,
      routeEffects_of_ended hReach hEnded key]
  all := by
    intro hOver
    have hEnded := ended_of_over hReach hBinding hKeys
      hReturns (Or.inr config.capacity_le) hOver
    have hPerm :=
      (routeEffects_perm hReach hEnded hKeys).map Prod.snd
    have hAll := runUnpartitioned_positions hBinding
      hReturns (List.range route.messages.length)
    rw [filterMap_getElem?_range] at hAll
    rw [hAll, ← map_snd_tagged]
    exact hPerm
  last := by
    intro earlier e later hTrace hLeaves
    exact completed_before_leaves hReach hKeys
      (fun _ _ hReach' hOver =>
        ended_of_over hReach' hBinding hKeys hReturns
          (Or.inr config.capacity_le) hOver)
      hTrace hLeaves

/- So do routes that have nothing to submit. -/
theorem refines_of_empty
    {config : Partitioner.Config}
    {trace : List Event} {s : State}
    (hReach : (lts route config).Reachable trace s)
    (hNone : route.messages = []) :
    Refines route binding trace s := by
  have hEffects : routeEffects trace = [] := by
    apply List.eq_nil_iff_forall_not_mem.mpr
    rintro ⟨position, effect⟩ hMem
    have hBefore := position_of_routeEffect hReach hMem
    have hBound := (ledger_of_reachable hReach).position_le
    rw [hNone, List.length_nil] at hBound
    omega
  have hNobody :
      ∀ (position : Nat) (message : RouteMessage),
        route.messages[position]? ≠ some message := by
    simp [hNone]
  have hLoop : ∀ key, route.messagesOf key = [] := by
    intro key
    simp [PartitionedRoute.messagesOf, hNone]
  constructor
  case beginning =>
    intro key
    rw [hEffects]
    exact List.nil_prefix
  case ofKey =>
    intro _ key
    rw [hEffects, hLoop]
    rfl
  case all =>
    intro _
    rw [hEffects, hNone]
    exact List.Perm.refl _
  case last =>
    intro earlier e later hTrace hLeaves
    refine completed_before_leaves hReach ?_ ?_ hTrace hLeaves
    · intro position message hMessage
      exact absurd hMessage (hNobody position message)
    · intro trace' s' hReach' hOver
      rcases over_of_isOver hReach' hOver with
        hEnded | ⟨_, _, _, _, _, hMessage, _⟩
      · exact hEnded
      · exact absurd hMessage (hNobody _ _)

/-
  A route that is the same for all messages, gives keys to
  all of them and does not unwind does in every schedule what
  the unpartitioned loop does, exactly if it has no messages
  or its domain can make the channels it is asked for.
-/
theorem partitioned_refines_unpartitioned
    {config : Partitioner.Config}
    (hBinding : ∀ position, route.binding position = binding)
    (hKeys :
      ∀ position message,
        route.messages[position]? = some message →
          ∃ key, route.resolve position message = .ok key)
    (hReturns :
      ∀ message ∈ route.messages, ¬ binding.Unwinds message) :
    (∀ trace s, (lts route config).Reachable trace s →
        Refines route binding trace s) ↔
      route.messages = [] ∨
        config.capacity ≤ Partitioner.maxPermits := by
  constructor
  · intro hRefines
    by_contra hNeither
    rw [not_or] at hNeither
    rcases exists_rest route config with
      ⟨trace, s, hReach, hStuck⟩
    rcases exists_leaves hReach (over_of_stuck hReach hStuck)
      with ⟨e, hMem, hLeaves⟩
    rcases List.append_of_mem hMem with
      ⟨earlier, later, hTrace⟩
    rcases ((hRefines trace s hReach).last earlier e later
        hTrace hLeaves).2 0
        (List.length_pos_iff.mpr hNeither.1) with
      ⟨sub, _, _, hCompleted⟩
    -- but no job ever gets to a worker
    rcases hReach.before hTrace with ⟨r, _, hBefore, _⟩
    exact hNeither.2 (fits_of_completed hBefore hCompleted)
  · rintro (hNone | hFits) trace s hReach
    · exact refines_of_empty hReach hNone
    · have hBounded :
          (lts route (⟨config, hFits⟩ :
            Partitioner.BoundedConfig)).Reachable trace s :=
        hReach
      exact refines_of_fits hBounded hBinding hKeys hReturns

/- A handler that takes every message of the two devices. -/
def steadyRoute : PartitionedRoute Unit :=
  devicesRoute (fun _ => some (.ok ()))

theorem steadyRoute_returns :
    ∀ message ∈ steadyRoute.messages,
      ¬ (steadyRoute.binding 0).Unwinds message := by
  rintro message _ (hUnwinds | ⟨_, _, hFails, _⟩)
  · cases hUnwinds
  · cases hFails

/- The messages of each device are processed in order. -/
theorem partitioned_refines_unpartitioned_devices :
    ∃ trace s,
      (lts steadyRoute smallConfig).Reachable trace s ∧
        s.phase = .ended ∧
        ((routeEffects trace).filter
            (fun e => steadyRoute.key? e.1 =
              some "left")).map Prod.snd =
          [.handled (deviceMessage 0),
            .settled (deviceMessage 0) .ack,
            .handled (deviceMessage 2),
            .settled (deviceMessage 2) .ack] ∧
        ((routeEffects trace).filter
            (fun e => steadyRoute.key? e.1 =
              some "right")).map Prod.snd =
          [.handled (deviceMessage 1),
            .settled (deviceMessage 1) .ack] := by
  rcases exists_rest steadyRoute smallConfig with
    ⟨trace, s, hReach, hStuck⟩
  have hOver := over_of_stuck hReach hStuck
  have hRefines :=
    (@partitioned_refines_unpartitioned Unit steadyRoute
      (steadyRoute.binding 0) smallConfig (fun _ => rfl)
      (fun _ _ _ => ⟨_, rfl⟩) steadyRoute_returns).mpr
        (Or.inr (by decide)) trace s hReach
  exact ⟨trace, s, hReach,
    devices_ended (over_of_isOver hReach hOver),
    hRefines.ofKey hOver "left", hRefines.ofKey hOver "right"⟩

/-
  Over a domain that asks for too much the task of a route
  dies of its first message, with the source still open.
-/
theorem route_dies_of_huge_domain :
    ∃ trace s,
      (lts steadyRoute hugeConfig).Reachable trace s ∧
        s.phase = .unwound 0 (some 0) ∧
        s.sourceOpen = true ∧
        routeEffects trace = [] ∧
        ¬ Refines steadyRoute (steadyRoute.binding 0) trace
          s := by
  have hStart :
      (lts steadyRoute hugeConfig).Reachable [] State.start :=
    Lts.Reachable.initial rfl
  have hYielded :=
    hStart.step (Step.yield rfl rfl (Nat.succ_pos 2))
  have hCalled := hYielded.step
    (@Step.submit _ steadyRoute hugeConfig _
      (deviceMessage 0) "left" 0 _ rfl rfl rfl
      (Partitioner.Step.call Nat.one_pos))
  have hSent := hCalled.step
    (Step.domain
      (@Partitioner.Step.acquire _ hugeConfig _ 0 _ rfl rfl
        rfl)
      trivial)
  have hPanicked := hSent.step
    (Step.domain
      (Partitioner.Step.panicRegistry rfl rfl trivial
        (by decide))
      trivial)
  have hDropped := hPanicked.step
    (Step.domain
      (@Partitioner.Step.requestDropped _ hugeConfig _ 0 _ rfl
        rfl)
      trivial)
  have hUnwound := hDropped.step
    (@Step.unwindSubmission _ steadyRoute hugeConfig _ 0 0 _
      rfl rfl rfl)
  refine ⟨_, _, hUnwound, rfl, rfl, rfl, ?_⟩
  intro hRefines
  have hNothing := hRefines.ofKey trivial "left"
  cases hNothing

end Install

end Router

end Qanat
