import Qanat.Router.Install.Settlement
import Qanat.Router.Partitioner.Rest

/-
  A partitioned route always gets to its end.

  The route and its domain do a bounded amount of work for
  the messages of the source, whatever the resolver and the
  handlers return and whoever else uses the domain.  When
  there is no work left, the task of the route has ended or
  died, and every message it took is settled of which nothing
  unwound.

  Main declarations:
    * `Install.Tidy`, `Install.tidy_of_reachable`
    * `Install.State.workLeft`, `Install.budget`
    * `Install.over_of_stuck`
    * `Install.route_always_ends`
    * `Install.settles_iff_returns`
-/

------------------------------------------------------------
-- The Route's Own Side
------------------------------------------------------------

namespace Qanat

namespace Partitioner

variable {ε : Type} {config : Config}

/- Handles go by being dropped. -/
theorem handles_of_step
    {trace : List (Event ε)} {s s' : State ε} {e : Event ε}
    (hReach : (lts ε config).Reachable trace s)
    (hStep : Step config s e s')
    (hHandles : 0 < s.handles) :
    (e = .dropped ∧ s.handles = s'.handles + 1) ∨
      0 < s'.handles := by
  cases hStep with
  | clone => exact Or.inr (Nat.succ_pos _)
  | drop hSome hCalls => exact Or.inl ⟨rfl, hSome⟩
  | handle hRunning hCommands hFits =>
      right
      rcases bounded_or_barren hReach with
        ⟨bounded, rfl, hBounded⟩ | ⟨hOver, hBarren⟩
      · rw [((invariant_of_reachable hBounded).handle hRunning
          hCommands).handles]
        exact hHandles
      · exact (hBarren.not_handled hOver
          (Step.handle hRunning hCommands hFits)).elim
  | stopRegistry | panicRegistry => exact Or.inr hHandles
  | retire =>
      right
      split <;> exact hHandles
  | _ => exact Or.inr hHandles

end Partitioner

end Qanat

namespace Qanat

namespace Router

namespace Install

open Transition
open Partitioner (CallId Call)

variable {Value : Type} {route : PartitionedRoute Value}
variable {config : Partitioner.Config}

/-
  The route keeps its handle until it is over, resolves only
  messages it has, and awaits only calls that have returned.
-/
structure Tidy
    (route : PartitionedRoute Value) (s : State) : Prop where
  handle : ¬ s.phase.IsOver → 0 < s.domain.handles
  message :
    s.phase = .resolving →
      s.position < route.messages.length
  pending :
    ∀ c ∈ s.pending,
      ∃ call, s.domain.calls[c]? = some call ∧
        call.phase = .returned

theorem Tidy.start : Tidy route State.start := by
  constructor <;> simp [State.start, Partitioner.State.start]

/- The calls that have returned stay so. -/
theorem Tidy.pending_step
    {events : List (Partitioner.Event JobEffect)}
    {s : State} {event : Partitioner.Event JobEffect}
    {domain : Partitioner.State JobEffect}
    (hTidy : Tidy route s)
    (hReach :
      (Partitioner.lts JobEffect config).Reachable events
        s.domain)
    (hStep : Partitioner.Step config s.domain event domain) :
    ∀ c ∈ s.pending,
      ∃ call, domain.calls[c]? = some call ∧
        call.phase = .returned := by
  intro c hPends
  rcases hTidy.pending c hPends with
    ⟨call, hCall, hReturned⟩
  rcases Partitioner.call_kept hReach hStep hCall with
    ⟨phase, hCall', hReturns, _⟩
  exact ⟨_, hCall', hReturns hReturned⟩

/- Every step keeps the route tidy. -/
theorem Tidy.step
    {events : List (Partitioner.Event JobEffect)}
    {s s' : State} {e : Event}
    (hTidy : Tidy route s)
    (hReach :
      (Partitioner.lts JobEffect config).Reachable events
        s.domain)
    (hStep : Step route config s e s') :
    Tidy route s' := by
  cases hStep with
  | @domain event domain hMove hAdmits =>
      refine ⟨?_, hTidy.message,
        hTidy.pending_step hReach hMove⟩
      intro hPhase
      have hHandles := hTidy.handle hPhase
      rcases Partitioner.handles_of_step hReach hMove hHandles
        with ⟨rfl, hDropped⟩ | hKept
      · have hOther : 1 < s.domain.handles := by
          rcases hAdmits with hOver | hOther
          · exact absurd hOver hPhase
          · exact hOther
        show 0 < domain.handles
        omega
      · exact hKept
  | «yield» hPhase hOpen hMore =>
      exact ⟨fun _ =>
          hTidy.handle (by simp [hPhase, Phase.IsOver]),
        fun _ => hMore, hTidy.pending⟩
  | endSource hPhase hOpen hLast =>
      exact ⟨hTidy.handle, hTidy.message, hTidy.pending⟩
  | unresolve hPhase | recover hPhase | «continue» hPhase =>
      exact ⟨fun _ =>
          hTidy.handle (by simp [hPhase, Phase.IsOver]),
        fun hNow => (by cases hNow), hTidy.pending⟩
  | submit hPhase hMessage hResolve hCall =>
      have hPending := hTidy.pending_step hReach hCall
      rcases hCall.of_called with ⟨rfl, rfl⟩
      exact ⟨fun _ =>
          hTidy.handle (by simp [hPhase, Phase.IsOver]),
        fun hNow => (by cases hNow), hPending⟩
  | @push position c call hPhase hCall hReturned =>
      refine ⟨fun _ =>
          hTidy.handle (by simp [hPhase, Phase.IsOver]),
        fun hNow => (by cases hNow), ?_⟩
      intro d hPends
      rcases List.mem_append.mp hPends with hOld | hNew
      · exact hTidy.pending d hOld
      · rw [List.mem_singleton.mp hNew]
        exact ⟨call, hCall, hReturned⟩
  | see hPhase hPends hReleased =>
      exact ⟨hTidy.handle, hTidy.message,
        fun d hLeft =>
          hTidy.pending d (List.mem_of_mem_erase hLeft)⟩
  | unwindRecovery | unwindSubmission | «end» =>
      exact ⟨fun hNow => (hNow trivial).elim,
        fun hNow => (by cases hNow), hTidy.pending⟩

theorem tidy_of_reachable
    {trace : List Event} {s : State}
    (hReach : (lts route config).Reachable trace s) :
    Tidy route s := by
  apply hReach.invariant (P := fun _ s => Tidy route s)
  · intro s hStart
    have hEq : s = State.start := hStart
    rw [hEq]
    exact Tidy.start
  · intro trace s e s' hBefore hTidy hStep
    exact hTidy.step (domain_reachable hBefore) hStep

end Install

end Router

end Qanat

------------------------------------------------------------
-- What Is Left To Do
------------------------------------------------------------

namespace Qanat

namespace Router

variable {Value : Type}

/-
  What the message at a position costs: the recovery of a
  failed resolution, or the job with the call that submits
  it, its completion and the way back to the source.
-/
def PartitionedRoute.price
    (route : PartitionedRoute Value) (position : Nat) : Nat :=
  match route.messages[position]? with
  | none => 0
  | some message =>
      match route.resolve position message with
      | .error error =>
          (route.recovery position message
            error).effects.length + 3
      | .ok _ => (route.job position message).dues + 24

/- What the messages from a position on cost. -/
def PartitionedRoute.priceFrom
    (route : PartitionedRoute Value) (position : Nat) : Nat :=
  ((List.range' position
    (route.messages.length - position)).map route.price).sum

theorem PartitionedRoute.priceFrom_of_lt
    {route : PartitionedRoute Value} {position : Nat}
    (hBound : position < route.messages.length) :
    route.priceFrom position =
      route.price position +
        route.priceFrom (position + 1) := by
  unfold priceFrom
  have hMore :
      route.messages.length - position =
        (route.messages.length - (position + 1)) + 1 := by
    omega
  rw [hMore, List.range'_succ, List.map_cons, List.sum_cons]

namespace Install

open Transition

variable {route : PartitionedRoute Value}
variable {config : Partitioner.Config}

def Phase.dues : Phase → Nat
| .selecting => 1
| .resolving => 0
| .recovering _ rest _ => rest.length + 2
| .submitting _ _ => 3
| .ended | .unwound _ _ => 0

/- What the route and its domain have still to do. -/
def State.workLeft
    (route : PartitionedRoute Value) (s : State) : Nat :=
  s.domain.workLeft + s.phase.dues + s.sourceOpen.toNat +
    s.pending.length + route.priceFrom s.position

/- What others bring into the domain. -/
def Event.brings : Event → Nat
| .domain event => event.brings
| _ => 0

/- Every step spends part of it. -/
theorem spend
    {events : List (Partitioner.Event JobEffect)}
    {s s' : State} {e : Event}
    (hReach :
      (Partitioner.lts JobEffect config).Reachable events
        s.domain)
    (hStep : Step route config s e s') :
    s'.workLeft route + 1 ≤ s.workLeft route + e.brings := by
  unfold State.workLeft
  cases hStep with
  | domain hMove hAdmits =>
      have hSpent :=
        Partitioner.spend_of_reachable hReach hMove
      simp only [Event.brings]
      omega
  | «yield» hPhase hOpen hMore =>
      simp only [hPhase, Phase.dues, Event.brings]
      omega
  | endSource hPhase hOpen hLast =>
      simp only [hPhase, hOpen, Phase.dues, Event.brings,
        Bool.toNat_true, Bool.toNat_false]
      omega
  | @unresolve message error hPhase hMessage hResolve =>
      have hBound : s.position < route.messages.length :=
        (List.getElem?_eq_some_iff.mp hMessage).1
      rw [PartitionedRoute.priceFrom_of_lt hBound]
      simp only [hPhase, Phase.dues, Event.brings,
        PartitionedRoute.price, hMessage, hResolve]
      omega
  | recover hPhase | «continue» hPhase =>
      simp only [hPhase, Phase.dues, Event.brings,
        List.length_cons, List.length_nil]
      omega
  | @submit message key call domain hPhase hMessage hResolve
      hCall =>
      have hSpent :=
        Partitioner.spend_of_reachable hReach hCall
      have hBound : s.position < route.messages.length :=
        (List.getElem?_eq_some_iff.mp hMessage).1
      rw [PartitionedRoute.priceFrom_of_lt hBound]
      simp only [Partitioner.Event.brings] at hSpent
      simp only [hPhase, Phase.dues, Event.brings,
        PartitionedRoute.price, hMessage, hResolve]
      omega
  | push hPhase =>
      simp only [hPhase, Phase.dues, Event.brings,
        List.length_append, List.length_singleton]
      omega
  | @see c hPhase hPends hReleased =>
      have hLess := List.length_erase_of_mem hPends
      have hSome := List.length_pos_of_mem hPends
      simp only [Event.brings]
      omega
  | unwindRecovery hPhase | unwindSubmission hPhase
  | «end» hPhase =>
      simp only [hPhase, Phase.dues, Event.brings]
      omega

/- A route lives on its messages and on what others bring. -/
def budget
    (route : PartitionedRoute Value)
    (config : Partitioner.Config) :
    (lts route config).Budget where
  left := State.workLeft route
  paid := Event.brings
  spend _ _ _ _ hReach hStep :=
    Install.spend (domain_reachable hReach) hStep

end Install

end Router

end Qanat

------------------------------------------------------------
-- The End of the Route
------------------------------------------------------------

namespace Qanat

namespace Router

namespace Install

open Transition
open Partitioner (CallId Call)

variable {Value : Type} {route : PartitionedRoute Value}
variable {config : Partitioner.Config}

/-
  What the route, the registry and the workers do by
  themselves; no timer is among it.
-/
def Event.IsWork : Event → Prop
| .domain event => event.IsWork
| _ => True

theorem Event.IsWork.brings_eq_zero
    {e : Event}
    (hWork : e.IsWork) :
    e.brings = 0 := by
  cases e with
  | domain event =>
      exact Partitioner.Event.IsOwn.brings_eq_zero
        (Partitioner.Event.IsWork.isOwn hWork)
  | _ => rfl

/- Others need no permission for what is not theirs. -/
theorem State.admits_of_isWork
    (s : State) {event : Partitioner.Event JobEffect}
    (hWork : event.IsWork) :
    s.Admits event := by
  cases event with
  | called | cancelled | dropped => exact hWork.elim
  | _ => trivial

/- The domain of a route without work has none. -/
theorem domain_stuck
    {s : State}
    (hStuck : (lts route config).Stuck Event.IsWork s) :
    (Partitioner.lts JobEffect config).Stuck
      Partitioner.Event.IsWork s.domain :=
  fun _ _ hMove hWork =>
    hStuck _ _ (Step.domain hMove (s.admits_of_isWork hWork))
      hWork

/- A submission has come back once the domain is quiet. -/
theorem not_submitting_of_stuck
    {trace : List Event} {s : State}
    (hReach : (lts route config).Reachable trace s)
    (hStuck : (lts route config).Stuck Event.IsWork s)
    (position : Nat) (c : CallId) :
    s.phase ≠ .submitting position c := by
  have hLedger := ledger_of_reachable hReach
  intro hPhase
  rcases hLedger.current position c
      (by simp [hPhase, Phase.submission?]) with
    ⟨front, key, hLast⟩
  rcases hLedger.carried ⟨position, key, c⟩
      (by simp [hLast]) with
    ⟨call, _, hCall, _, _, _, hState⟩
  have hDone :=
    (Partitioner.quiet_of_stuck (domain_reachable hReach)
      (domain_stuck hStuck)).1 c call hCall
  cases hCallPhase : call.phase with
  | returned =>
      exact hStuck _ _ (Step.push hPhase hCall hCallPhase)
        trivial
  | panicked =>
      exact hStuck _ _
        (Step.unwindSubmission hPhase hCall hCallPhase) trivial
  | cancelled =>
      rw [hCallPhase] at hState
      rcases hState with hReturned | ⟨_, hKept⟩
      · cases hReturned
      · exact hKept rfl
  | _ =>
      rw [hCallPhase] at hDone
      exact hDone trivial

/- The resolver always gets to a result. -/
theorem not_resolving_of_stuck
    {s : State}
    (hTidy : Tidy route s)
    (hStuck : (lts route config).Stuck Event.IsWork s) :
    s.phase ≠ .resolving := by
  intro hPhase
  have hMessage :=
    List.getElem?_eq_getElem (hTidy.message hPhase)
  cases hResolve : route.resolve s.position _ with
  | error error =>
      exact hStuck _ _
        (Step.unresolve hPhase hMessage hResolve) trivial
  | ok key =>
      have hHandles : 0 < s.domain.handles :=
        hTidy.handle (by simp [hPhase, Phase.IsOver])
      exact hStuck _ _
        (Step.submit hPhase hMessage hResolve
          (Partitioner.Step.call hHandles))
        trivial

/- Jobs that have returned have left a quiet domain. -/
theorem released_of_stuck
    {trace : List Event} {s : State}
    (hReach : (lts route config).Reachable trace s)
    (hStuck : (lts route config).Stuck Event.IsWork s)
    {c : CallId} {call : Call JobEffect}
    (hCall : s.domain.calls[c]? = some call)
    (hReturned : call.phase = .returned) :
    s.domain.Released c := by
  have hQuiet := Partitioner.quiet_of_stuck
    (domain_reachable hReach) (domain_stuck hStuck)
  refine ⟨⟨call, hCall, ?_⟩, ?_⟩
  · simp [hReturned, Partitioner.CallPhase.OwnsJob]
  · intro w worker hWorker job hJob
    rw [hQuiet.2 w worker hWorker] at hJob
    cases hJob

/- Nothing is awaited for ever. -/
theorem not_selecting_of_stuck
    {trace : List Event} {s : State}
    (hReach : (lts route config).Reachable trace s)
    (hStuck : (lts route config).Stuck Event.IsWork s) :
    s.phase ≠ .selecting := by
  have hLedger := ledger_of_reachable hReach
  have hTidy := tidy_of_reachable hReach
  intro hPhase
  cases hOpen : s.sourceOpen with
  | true =>
      rcases Nat.lt_or_eq_of_le hLedger.position_le with
        hMore | hLast
      · exact hStuck _ _ (Step.yield hPhase hOpen hMore)
          trivial
      · exact hStuck _ _ (Step.endSource hPhase hOpen hLast)
          trivial
  | false =>
      cases hPending : s.pending with
      | nil =>
          exact hStuck _ _ (Step.end hPhase hOpen hPending)
            trivial
      | cons c rest =>
          have hPends : c ∈ s.pending := by simp [hPending]
          rcases hTidy.pending c hPends with
            ⟨call, hCall, hReturned⟩
          exact hStuck _ _
            (Step.see hPhase hPends
              (released_of_stuck hReach hStuck hCall
                hReturned))
            trivial

/- A route without work is over. -/
theorem over_of_stuck
    {trace : List Event} {s : State}
    (hReach : (lts route config).Reachable trace s)
    (hStuck : (lts route config).Stuck Event.IsWork s) :
    s.phase.IsOver := by
  cases hPhase : s.phase with
  | selecting =>
      exact absurd hPhase
        (not_selecting_of_stuck hReach hStuck)
  | resolving =>
      exact absurd hPhase
        (not_resolving_of_stuck (tidy_of_reachable hReach)
          hStuck)
  | recovering position rest panics =>
      cases rest with
      | cons effect rest =>
          exact (hStuck _ _ (Step.recover hPhase)
            trivial).elim
      | nil =>
          cases panics with
          | false =>
              exact (hStuck _ _ (Step.continue hPhase)
                trivial).elim
          | true =>
              exact (hStuck _ _ (Step.unwindRecovery hPhase)
                trivial).elim
  | submitting position c =>
      exact absurd hPhase
        (not_submitting_of_stuck hReach hStuck position c)
  | ended | unwound => trivial

/- All jobs have completed but one the task has died of. -/
theorem completed_of_stuck
    {trace : List Event} {s : State}
    (hReach : (lts route config).Reachable trace s)
    (hStuck : (lts route config).Stuck Event.IsWork s)
    {sub : Submission} (hSub : sub ∈ submissions trace) :
    s.phase.submission? = some (sub.position, sub.call) ∨
      Partitioner.Event.completed sub.key sub.call ∈
        domainEvents trace := by
  rcases (ledger_of_reachable hReach).carried sub hSub with
    ⟨call, _, hCall, _, hKey, _, hReturned | ⟨hNow, _⟩⟩
  · rw [← hKey]
    exact Or.inr (Partitioner.completed_of_released
      (domain_reachable hReach) hCall hReturned
      (released_of_stuck hReach hStuck hCall hReturned))
  · exact Or.inl hNow

end Install

end Router

end Qanat

------------------------------------------------------------
-- Rest
------------------------------------------------------------

namespace Qanat

namespace Router

namespace Install

open Transition

variable {Value : Type} {route : PartitionedRoute Value}
variable {config : Partitioner.Config}

/-
  The task has ended with its source, or died of a message it
  had taken: of the error target, on one without a key, or of
  a domain that cannot make the channels it is asked for.
-/
def Over
    (route : PartitionedRoute Value)
    (config : Partitioner.Config)
    (trace : List Event) (s : State) : Prop :=
  s.phase = .ended ∨
    ∃ position call message,
      s.phase = .unwound position call ∧
        Event.yielded position ∈ trace ∧
        route.messages[position]? = some message ∧
        ((∃ error,
            route.resolve position message = .error error ∧
              (route.binding position).FailureUnwinds message
                error none) ∨
          (∃ key, route.resolve position message = .ok key ∧
            Partitioner.maxPermits < config.capacity))

/- Nobody dies of a message of which nothing unwinds. -/
theorem not_died_of_returns
    {position : Nat} {message : RouteMessage}
    (hReturns :
      ¬ route.Unwinds position message ∧
        route.Fits config position)
    (hMessage : route.messages[position]? = some message) :
    ¬ ((∃ error,
          route.resolve position message = .error error ∧
            (route.binding position).FailureUnwinds message
              error none) ∨
        (∃ key, route.resolve position message = .ok key ∧
          Partitioner.maxPermits < config.capacity)) := by
  rcases hReturns with ⟨hReturns, hFits⟩
  unfold PartitionedRoute.Unwinds at hReturns
  rintro
    (⟨error, hResolve, hUnwinds⟩ | ⟨key, hResolve, hHuge⟩)
  · rw [hResolve] at hReturns
    exact hReturns hUnwinds
  · rcases hFits with hNone | hFits
    · rw [PartitionedRoute.key?_eq_some_iff.mpr
        ⟨message, hMessage, hResolve⟩] at hNone
      cases hNone
    · exact absurd hHuge (Nat.not_lt.mpr hFits)

theorem over_of_isOver
    {trace : List Event} {s : State}
    (hReach : (lts route config).Reachable trace s)
    (hOver : s.phase.IsOver) :
    Over route config trace s := by
  cases hPhase : s.phase with
  | ended => exact Or.inl hPhase
  | unwound position call =>
      rcases cause_of_unwound hReach hPhase with
        ⟨hBefore, message, hMessage, hCause⟩
      exact Or.inr ⟨position, call, message, hPhase,
        (yielded_iff_of_over hReach hOver position).mpr
          hBefore,
        hMessage, hCause⟩
  | _ =>
      rw [hPhase] at hOver
      exact hOver.elim

/-
  Whatever a route and its domain do first, and whoever else
  uses the domain, the work for the messages of the source
  comes to an end, and the task of the route with it.  Those
  messages have then been settled, and once, that it took and
  of which nothing unwound.
-/
theorem route_always_ends
    {trace : List Event} {s : State}
    (hReach : (lts route config).Reachable trace s) :
    (∀ more s',
      (lts route config).Continues Event.IsWork s more s' →
        more.length ≤ s.workLeft route ∧
          ((lts route config).Stuck Event.IsWork s' →
            Over route config (trace ++ more) s' ∧
              ∀ position message,
                route.messages[position]? = some message →
                  (SettledOnce position message
                      (trace ++ more) ↔
                    Event.yielded position ∈ trace ++ more ∧
                      ¬ route.Unwinds position message ∧
                      route.Fits config position))) ∧
      ∃ more s',
        (lts route config).Continues Event.IsWork s more s' ∧
          (lts route config).Stuck Event.IsWork s' := by
  have hFree :
      ∀ e : Event, e.IsWork →
        (budget route config).paid e = 0 :=
    fun e hWork => hWork.brings_eq_zero
  constructor
  · intro more s' hMore
    have hBound :=
      (budget route config).continues_le hFree hReach hMore
    refine ⟨Nat.le_trans (Nat.le_add_right _ _) hBound, ?_⟩
    intro hStuck
    have hReach' := hReach.continue hMore
    have hOver := over_of_stuck hReach' hStuck
    refine ⟨over_of_isOver hReach' hOver, ?_⟩
    intro position message hMessage
    exact settledOnce_of_over hReach' hOver
      (fun sub hSub => completed_of_stuck hReach' hStuck hSub)
      hMessage
  · exact (budget route config).exists_stuck hFree hReach

/- A route comes to rest from the beginning. -/
theorem exists_rest
    (route : PartitionedRoute Value)
    (config : Partitioner.Config) :
    ∃ trace s, (lts route config).Reachable trace s ∧
      (lts route config).Stuck Event.IsWork s := by
  have hStart :
      (lts route config).Reachable [] State.start :=
    Lts.Reachable.initial rfl
  rcases (budget route config).exists_stuck
      (fun e hWork => Event.IsWork.brings_eq_zero hWork)
      hStart with ⟨trace, s, hMore, hStuck⟩
  exact ⟨trace, s, hStart.continue hMore, hStuck⟩

/-
  Messages are settled in time in every run of a route,
  exactly if nothing that is called for one of them unwinds
  and the domain can take the jobs.
-/
theorem settles_iff_returns
    (route : PartitionedRoute Value)
    (config : Partitioner.Config) :
    (∀ trace s, (lts route config).Reachable trace s →
        Settles route trace s) ↔
      ∀ position message,
        route.messages[position]? = some message →
          ¬ route.Unwinds position message ∧
            route.Fits config position := by
  constructor
  · intro hSettles
    rcases exists_rest route config with
      ⟨trace, s, hReach, hStuck⟩
    have hOver := over_of_stuck hReach hStuck
    have hAll :
        ∀ position message,
          Event.yielded position ∈ trace →
          route.messages[position]? = some message →
            ¬ route.Unwinds position message ∧
              route.Fits config position := by
      intro position message hYielded hMessage
      exact ((settledOnce_of_over hReach hOver
        (fun sub hSub => completed_of_stuck hReach hStuck hSub)
        hMessage).mp
          ((hSettles trace s hReach).ended hOver position
            message hYielded hMessage)).2
    intro position message hMessage
    refine hAll position message ?_ hMessage
    rcases over_of_isOver hReach hOver with
      hEnded | ⟨died, call, lost, _, hYielded, hLost, hCause⟩
    · rw [yielded_iff_of_over hReach hOver,
        (completed_of_ended hReach hEnded).2.1]
      exact (List.getElem?_eq_some_iff.mp hMessage).1
    · -- what the task died of would have to be settled
      exact absurd hCause
        (not_died_of_returns (hAll died lost hYielded hLost)
          hLost)
  · intro hReturns trace s hReach
    constructor
    · intro sub hSub hCompleted message hMessage
      exact (settledOnce_of_completed hReach hSub hMessage
        hCompleted).mpr
          (hReturns sub.position message hMessage).1
    · intro hOver position message _ hMessage
      rcases over_of_isOver hReach hOver with
        hEnded | ⟨died, call, lost, _, _, hLost, hCause⟩
      · exact (settledOnce_of_ended hReach hEnded hMessage).mpr
          (hReturns position message hMessage)
      · exact absurd hCause
          (not_died_of_returns (hReturns died lost hLost)
            hLost)

end Install

end Router

end Qanat

------------------------------------------------------------
-- Two Devices
------------------------------------------------------------

namespace Qanat

namespace Router

namespace Install

open Transition Interleaving
open Partitioner (smallConfig)

def deviceMessage (n : UInt64) : RouteMessage :=
  { sampleMessage with id := n }

/-
  A route that consumes three messages of two devices, with
  an outcome of the handler for each of them.
-/
def devicesRoute
    (outcome : Nat → Option (Except RouteError Unit)) :
    PartitionedRoute Unit where
  messages :=
    [deviceMessage 0, deviceMessage 1, deviceMessage 2]
  binding := fun position =>
    { source := { decode := fun _ => .ok () }
      handler :=
        { consume := fun _ _ => outcome position
          call := fun _ _ _ => none }
      target := none
      errorTarget := none
      failureDecision := .retry
      failureValue := fun _ => .ok () }
  resolver := fun position _ _ =>
    .ok (if position = 1 then "right" else "left")

/- The second message is one that the handler panics on. -/
def panicking : Nat → Option (Except RouteError Unit) :=
  fun position =>
    if position = 1 then none else some (.ok ())

/- The route ends whatever its handlers do. -/
theorem devices_ended
    {outcome : Nat → Option (Except RouteError Unit)}
    {trace : List Event} {s : State}
    (hOver :
      Over (devicesRoute outcome) smallConfig trace s) :
    s.phase = .ended := by
  rcases hOver with
    hEnded | ⟨_, _, _, _, _, _, ⟨error, hResolve, _⟩ |
      ⟨_, _, hHuge⟩⟩
  · exact hEnded
  · cases hResolve
  · exact absurd hHuge (by decide)

theorem devices_fit
    (outcome : Nat → Option (Except RouteError Unit))
    (position : Nat) :
    (devicesRoute outcome).Fits smallConfig position :=
  Or.inr (by decide)

/- A handler that unwinds leaves its message unsettled. -/
theorem unsettled_of_panic :
    ∃ trace s,
      (lts (devicesRoute panicking) smallConfig).Reachable
          trace s ∧
        s.phase = .ended ∧
        ofTag 1 (routeEffects trace) =
          [.handled (deviceMessage 1)] ∧
        ¬ Settles (devicesRoute panicking) trace s := by
  rcases exists_rest (devicesRoute panicking) smallConfig
    with ⟨trace, s, hReach, hStuck⟩
  have hEnded := devices_ended
    (over_of_isOver hReach (over_of_stuck hReach hStuck))
  have hLedger := ledger_of_reachable hReach
  rcases completed_of_ended hReach hEnded with
    ⟨_, hAll, hCompleted⟩
  have hBefore : 1 < s.position := by
    rw [hAll]
    decide
  have hKey :
      (devicesRoute panicking).key? 1 = some "right" := rfl
  rcases hLedger.submission_of_key hBefore hKey with
    ⟨sub, hSub, hPosition, _⟩
  have hMessage :
      (devicesRoute panicking).messages[sub.position]? =
        some (deviceMessage 1) := by
    rw [hPosition]
    rfl
  have hEffects := effects_of_completed hReach hSub hMessage
    (hCompleted sub hSub)
  rw [hPosition] at hEffects
  refine ⟨trace, s, hReach, hEnded, hEffects, ?_⟩
  intro hSettles
  rcases hSettles.completed sub hSub (hCompleted sub hSub)
      (deviceMessage 1) hMessage with ⟨decision, hOnce⟩
  rw [hPosition, hEffects] at hOnce
  cases hOnce

/- The first message is on its way to a worker. -/
theorem devices_submitted
    (outcome : Nat → Option (Except RouteError Unit)) :
    ∃ trace s,
      (lts (devicesRoute outcome) smallConfig).Reachable
          trace s ∧
        s.phase = .submitting 0 0 := by
  have hStart :
      (lts (devicesRoute outcome) smallConfig).Reachable []
        State.start :=
    Lts.Reachable.initial rfl
  have hYielded :=
    hStart.step (Step.yield rfl rfl (Nat.succ_pos 2))
  have hCalled := hYielded.step
    (@Step.submit _ (devicesRoute outcome) smallConfig _
      (deviceMessage 0) "left" 0 _ rfl rfl rfl
      (Partitioner.Step.call Nat.one_pos))
  exact ⟨_, _, hCalled, rfl⟩

/- The messages that the handler returns on are settled. -/
theorem route_always_ends_devices :
    ∃ trace s more s',
      (lts (devicesRoute panicking) smallConfig).Reachable
          trace s ∧
        s.phase = .submitting 0 0 ∧
        (lts (devicesRoute panicking) smallConfig).Continues
          Event.IsWork s more s' ∧
        s'.phase = .ended ∧
        SettledOnce 0 (deviceMessage 0) (trace ++ more) ∧
        ¬ SettledOnce 1 (deviceMessage 1) (trace ++ more) ∧
        SettledOnce 2 (deviceMessage 2) (trace ++ more) := by
  rcases devices_submitted panicking with
    ⟨trace, s, hReach, hPhase⟩
  rcases route_always_ends hReach with
    ⟨hRest, more, s', hMore, hStuck⟩
  rcases (hRest more s' hMore).2 hStuck with
    ⟨hOver, hSettled⟩
  have hEnded := devices_ended hOver
  have hReach' := hReach.continue hMore
  have hTaken :
      ∀ position < 3,
        Event.yielded position ∈ trace ++ more := by
    intro position hBound
    rw [yielded_iff hReach',
      (completed_of_ended hReach' hEnded).2.1]
    exact Or.inl hBound
  refine ⟨trace, s, more, s', hReach, hPhase, hMore, hEnded,
    ?_, ?_, ?_⟩
  · refine (hSettled 0 _ rfl).mpr
      ⟨hTaken 0 (by decide), ?_, devices_fit _ _⟩
    rintro (hUnwinds | ⟨_, _, hFails, _⟩)
    · cases hUnwinds
    · cases hFails
  · intro hOnce
    exact ((hSettled 1 _ rfl).mp hOnce).2.1 (Or.inl rfl)
  · refine (hSettled 2 _ rfl).mpr
      ⟨hTaken 2 (by decide), ?_, devices_fit _ _⟩
    rintro (hUnwinds | ⟨_, _, hFails, _⟩)
    · cases hUnwinds
    · cases hFails

end Install

end Router

end Qanat
