import Qanat.Bus.GroupStreams
import Qanat.Bus.Message
import Qanat.Library.Budgets
import Qanat.Router.Loop

/-
  Unpartitioned routes that are fed by a local bus.

  The source of a route has subscribed to a queue group, and
  its task reads the stream until it unwinds.  Members of the
  group that are no routes, other subscribers and publishers
  do what they like.

  Main declarations:
    * `Workers.State`, `Workers.Step`, `Workers.lts`
    * `Workers.Shared`
    * `Workers.workers_share_the_messages`
    * `Workers.dispatched_messages_are_processed`
-/

------------------------------------------------------------
-- States and Steps
------------------------------------------------------------

namespace Qanat

namespace Bus

namespace Workers

open Transition
open LocalRouter (ChannelId)
open Router (RouteBinding RouteEffect RouteMessage)
open Router.Loop (Phase)

/- The tasks, by the order in which they are spawned. -/
abbrev TaskId := Nat

/- `position` counts the messages the stream has yielded. -/
structure Task where
  channel : ChannelId
  position : Nat
  phase : Phase

structure State where
  router : LocalRouter.State RawMessage
  tasks : List Task

def State.start : State where
  router := .start
  tasks := []

inductive Event where
| bus (event : LocalRouter.Event RawMessage)
| installed (pattern group : String) (channel : ChannelId)
| taken
    (task : TaskId) (channel : ChannelId)
    (message : RawMessage)
| performed (task : TaskId) (effect : RouteEffect)
| continued (task : TaskId)
| unwound (task : TaskId) (channel : ChannelId)

/- The step of the bus an event is. -/
def Event.bus? : Event → Option (LocalRouter.Event RawMessage)
| .bus event => some event
| .installed pattern group channel =>
    some (.groupSubscribed pattern group channel)
| .taken _ channel message =>
    some (.received channel message)
| .unwound _ channel => some (.dropped channel)
| .performed _ _ => none
| .continued _ => none

def Event.effect? (t : TaskId) : Event → Option RouteEffect
| .performed task effect =>
    if task = t then some effect else none
| _ => none

def busEvents
    (trace : List Event) :
    List (LocalRouter.Event RawMessage) :=
  trace.filterMap Event.bus?

/- What a task has done so far. -/
def effects (t : TaskId) (trace : List Event) :
    List RouteEffect :=
  trace.filterMap (Event.effect? t)

/- What has been taken from a stream for a route. -/
def messagesFrom (channel : ChannelId) (trace : List Event) :
    List RouteMessage :=
  (LocalRouter.receivedFrom channel (busEvents trace)).map
    routeMessageFromBroker

/- The stream of a task is its own. -/
def LeavesTasks
    (tasks : List Task) : LocalRouter.Event RawMessage → Prop
| .received channel _ =>
    ∀ task ∈ tasks, task.channel ≠ channel
| .dropped channel =>
    ∀ task ∈ tasks, task.channel ≠ channel
| _ => True

variable {Value : Type}

/- The binding of a task may change from message to message. -/
inductive Step
    (binding : TaskId → Nat → RouteBinding Value) :
    State → Event → State → Prop where
| bus
    {s : State} {event : LocalRouter.Event RawMessage}
    {router : LocalRouter.State RawMessage} :
    LocalRouter.Step s.router event router →
    LeavesTasks s.tasks event →
    Step binding s (.bus event) { s with router := router }
-- `install` and `BrokerSource::open`
| install
    {s : State} {pattern group : String}
    {channel : ChannelId}
    {router : LocalRouter.State RawMessage} :
    LocalRouter.Step s.router
      (.groupSubscribed pattern group channel) router →
    Step binding s (.installed pattern group channel)
      { router := router
        tasks := s.tasks ++
          [{ channel := channel
             position := 0
             phase := .waiting }] }
-- `subscription.next()`
| next
    {s : State} {t : TaskId} {task : Task}
    {message : RawMessage}
    {router : LocalRouter.State RawMessage} :
    s.tasks[t]? = some task →
    task.phase = .waiting →
    LocalRouter.Step s.router
      (.received task.channel message) router →
    Step binding s (.taken t task.channel message)
      { router := router
        tasks := s.tasks.set t
          { task with
            position := task.position + 1
            phase :=
              .take (binding t) task.position
                (routeMessageFromBroker message) } }
-- `process_route_message`
| perform
    {s : State} {t : TaskId} {task : Task}
    {position : Nat} {effect : RouteEffect}
    {rest : List RouteEffect} {panics : Bool} :
    s.tasks[t]? = some task →
    task.phase = .working position (effect :: rest) panics →
    Step binding s (.performed t effect)
      { s with
        tasks := s.tasks.set t
          { task with
            phase := .working position rest panics } }
| «continue»
    {s : State} {t : TaskId} {task : Task}
    {position : Nat} :
    s.tasks[t]? = some task →
    task.phase = .working position [] false →
    Step binding s (.continued t)
      { s with
        tasks := s.tasks.set t
          { task with phase := .waiting } }
-- the task unwinds and drops its stream
| unwind
    {s : State} {t : TaskId} {task : Task}
    {position : Nat}
    {router : LocalRouter.State RawMessage} :
    s.tasks[t]? = some task →
    task.phase = .working position [] true →
    LocalRouter.Step s.router (.dropped task.channel)
      router →
    Step binding s (.unwound t task.channel)
      { router := router
        tasks := s.tasks.set t
          { task with phase := .ended } }

def lts
    (binding : TaskId → Nat → RouteBinding Value) :
    Lts State Event where
  initial s := s = State.start
  step := Step binding

variable {binding : TaskId → Nat → RouteBinding Value}
variable {trace : List Event} {s : State}

/- A run of the tasks is a run of their bus. -/
theorem router_reachable
    (hReach : (lts binding).Reachable trace s) :
    (LocalRouter.lts RawMessage).Reachable (busEvents trace)
      s.router := by
  apply hReach.component State.router Event.bus?
  · rintro s rfl
    rfl
  · intro s e s' hStep
    cases hStep with
    | bus hMove => exact hMove
    | install hMove => exact hMove
    | next _ _ hMove => exact hMove
    | unwind _ _ hMove => exact hMove
    | perform => rfl
    | «continue» => rfl

theorem mem_busEvents
    {e : Event} {event : LocalRouter.Event RawMessage}
    (hMem : e ∈ trace) (hBus : e.bus? = some event) :
    event ∈ busEvents trace :=
  List.mem_filterMap.mpr ⟨e, hMem, hBus⟩

theorem effects_append (t : TaskId) (e : Event) :
    effects t (trace ++ [e]) =
      effects t trace ++ (e.effect? t).toList := by
  unfold effects
  rw [List.filterMap_append, Lists.filterMap_singleton]

theorem messagesFrom_append (channel : ChannelId) (e : Event) :
    messagesFrom channel (trace ++ [e]) =
      messagesFrom channel trace ++
        ((e.bus?.bind
          (LocalRouter.Event.received? channel)).map
            routeMessageFromBroker).toList := by
  unfold messagesFrom LocalRouter.receivedFrom busEvents
  rw [List.filterMap_append, Lists.filterMap_singleton,
    List.filterMap_append, List.map_append]
  cases hBus : e.bus? with
  | none => simp
  | some event =>
      cases hReceived : event.received? channel <;>
        simp [hReceived]

end Workers

end Bus

end Qanat

------------------------------------------------------------
-- The Tasks
------------------------------------------------------------

namespace Qanat

namespace Bus

namespace Workers

open Transition
open LocalRouter (ChannelId consistent_of_reachable)
open Router (RouteBinding RouteEffect RouteMessage)
open Router.Loop (Phase Progress)

variable {Value : Type}
variable {binding : TaskId → Nat → RouteBinding Value}
variable {trace : List Event} {s s' : State}
variable {t : TaskId} {task : Task} {e : Event}

/- Each task has a channel of its own. -/
theorem channels_of_reachable
    (hReach : (lts binding).Reachable trace s) :
    (s.tasks.map Task.channel).Nodup ∧
      ∀ c ∈ s.tasks.map Task.channel,
        c < s.router.channels.length := by
  induction hReach with
  | initial hInitial =>
      subst hInitial
      exact ⟨List.nodup_nil, nofun⟩
  | @step trace s s' e hReach hStep ih =>
      have hCons :=
        consistent_of_reachable (router_reachable hReach)
      rcases ih with ⟨hOnce, hKnown⟩
      have hLater : ∀ {event router},
          LocalRouter.Step s.router event router →
            ∀ c ∈ s.tasks.map Task.channel,
              c < router.channels.length :=
        fun hMove c hMem =>
          Nat.lt_of_lt_of_le (hKnown c hMem)
            (hCons.channels_length hMove)
      have hSet : ∀ {t : TaskId} {task : Task}
          {position : Nat} {phase : Phase}
          {router : LocalRouter.State RawMessage},
          s.tasks[t]? = some task →
            (∀ c ∈ s.tasks.map Task.channel,
              c < router.channels.length) →
              ((s.tasks.set t
                  { task with
                    position := position
                    phase := phase }).map
                      Task.channel).Nodup ∧
                ∀ c ∈ (s.tasks.set t
                    { task with
                      position := position
                      phase := phase }).map Task.channel,
                  c < router.channels.length := by
        intro t task position phase router hTask hAll
        have hSame :
            (s.tasks.set t
                { task with
                  position := position
                  phase := phase }).map Task.channel =
              s.tasks.map Task.channel :=
          Lists.map_set_of_eq hTask rfl
        rw [hSame]
        exact ⟨hOnce, hAll⟩
      cases hStep with
      | bus hMove => exact ⟨hOnce, hLater hMove⟩
      | @install pattern group channel router hMove =>
          rcases hMove.joins hCons rfl with ⟨rfl, hNew, _⟩
          rw [List.map_append]
          constructor
          · rw [List.nodup_append]
            refine ⟨hOnce, List.nodup_singleton _, ?_⟩
            intro c hMem c' hMem' hSame
            subst hSame
            rw [List.map_singleton, List.mem_singleton]
              at hMem'
            exact absurd (hKnown c hMem)
              (by rw [hMem']; exact Nat.lt_irrefl _)
          · intro c hMem
            rcases List.mem_append.mp hMem with hOld | hLast
            · exact hLater hMove c hOld
            · rw [List.map_singleton, List.mem_singleton]
                at hLast
              rw [hLast]
              exact (List.getElem?_eq_some_iff.mp hNew).1
      | next hTask _ hMove | unwind hTask _ hMove =>
          exact hSet hTask (hLater hMove)
      | perform hTask | «continue» hTask =>
          exact hSet hTask hKnown

theorem task_of_channel
    (hReach : (lts binding).Reachable trace s)
    {t' : TaskId} {task' : Task}
    (hTask : s.tasks[t]? = some task)
    (hTask' : s.tasks[t']? = some task')
    (hSame : task.channel = task'.channel) :
    t = t' :=
  Lists.eq_of_nodup_map (channels_of_reachable hReach).1
    hTask hTask' hSame

/- A task listens to its stream until it unwinds. -/
def Task.Listens
    (router : LocalRouter.State RawMessage) (task : Task) :
    Prop :=
  task.phase ≠ .notInstalled ∧
    (task.phase = .ended ∨
      ∃ queue,
        router.channels[task.channel]? = some ⟨true, queue⟩)

theorem Task.Listens.move
    {router router' : LocalRouter.State RawMessage}
    {event : LocalRouter.Event RawMessage}
    (hListens : task.Listens router)
    (hCons : LocalRouter.Consistent router)
    (hMove : LocalRouter.Step router event router')
    (hKept : event ≠ .dropped task.channel) :
    task.Listens router' := by
  rcases hListens with ⟨hPhase, hEnded | ⟨queue, hOpen⟩⟩
  · exact ⟨hPhase, Or.inl hEnded⟩
  · exact ⟨hPhase,
      Or.inr (hMove.stays_open hCons hOpen hKept)⟩

/- It goes on listening whatever it does next. -/
theorem Task.Listens.go
    {router : LocalRouter.State RawMessage}
    {position : Nat} {phase : Phase}
    (hListens : task.Listens router)
    (hBusy : task.phase ≠ .ended)
    (hPhase : phase ≠ .notInstalled) :
    ({ task with position := position, phase := phase } :
      Task).Listens router := by
  rcases hListens with ⟨_, hEnded | hOpen⟩
  · exact absurd hEnded hBusy
  · exact ⟨hPhase, Or.inr hOpen⟩

theorem listens_of_reachable
    (hReach : (lts binding).Reachable trace s)
    (hTask : s.tasks[t]? = some task) :
    task.Listens s.router := by
  induction hReach generalizing t task with
  | initial hInitial =>
      subst hInitial
      cases hTask
  | @step trace s s' e hReach hStep ih =>
      have hCons :=
        consistent_of_reachable (router_reachable hReach)
      cases hStep with
      | @bus event router hMove hLeaves =>
          refine (ih hTask).move hCons hMove ?_
          rintro rfl
          exact hLeaves task (List.mem_of_getElem? hTask) rfl
      | install hMove =>
          rcases Lists.getElem?_append_singleton_eq_some.mp
              hTask with hOld | ⟨_, rfl⟩
          · exact (ih hOld).move hCons hMove nofun
          · rcases hMove.joins hCons rfl with ⟨rfl, hNew, _⟩
            exact ⟨nofun, Or.inr ⟨[], hNew⟩⟩
      | next hBusy hPhase hMove =>
          rcases (Lists.getElem?_set_eq_some hBusy).mp hTask
            with ⟨rfl, rfl⟩ | ⟨_, hOld⟩
          · exact ((ih hBusy).move hCons hMove nofun).go
              (by rw [hPhase]; nofun) nofun
          · exact (ih hOld).move hCons hMove nofun
      | perform hBusy hPhase | «continue» hBusy hPhase =>
          rcases (Lists.getElem?_set_eq_some hBusy).mp hTask
            with ⟨rfl, rfl⟩ | ⟨_, hOld⟩
          · exact (ih hBusy).go (by rw [hPhase]; nofun) nofun
          · exact ih hOld
      | unwind hBusy hPhase hMove =>
          rcases (Lists.getElem?_set_eq_some hBusy).mp hTask
            with ⟨rfl, rfl⟩ | ⟨hNe, hOld⟩
          · exact ⟨nofun, Or.inl rfl⟩
          · refine (ih hOld).move hCons hMove ?_
            intro hSame
            exact hNe (task_of_channel hReach hBusy hOld
              (LocalRouter.Event.dropped.inj hSame))

/- A task has done what its loop does with its messages. -/
def Task.Accounts
    (binding : TaskId → Nat → RouteBinding Value)
    (trace : List Event) (t : TaskId) (task : Task) : Prop :=
  Progress (binding t) (messagesFrom task.channel trace)
      (effects t trace) task.phase ∧
    task.position = (messagesFrom task.channel trace).length

theorem Task.Accounts.keep
    (hAccounts : task.Accounts binding trace t)
    (hReceived :
      e.bus?.bind
        (LocalRouter.Event.received? task.channel) = none)
    (hEffect : e.effect? t = none) :
    task.Accounts binding (trace ++ [e]) t := by
  unfold Task.Accounts
  rw [messagesFrom_append, effects_append, hReceived, hEffect]
  simp only [Option.map_none, Option.toList_none,
    List.append_nil]
  exact hAccounts

/- A task that is yet to be spawned has done nothing. -/
theorem effects_eq_nil
    (hReach : (lts binding).Reachable trace s)
    (hNew : s.tasks.length ≤ t) :
    effects t trace = [] := by
  induction hReach with
  | initial => rfl
  | @step trace s s' e hReach hStep ih =>
      have hOther : ∀ {t' : TaskId} {task' : Task},
          s.tasks[t']? = some task' → s.tasks.length ≤ t →
            t' ≠ t := by
        rintro t' task' hTask hLe rfl
        exact absurd (List.getElem?_eq_some_iff.mp hTask).1
          (Nat.not_lt.mpr hLe)
      rw [effects_append]
      cases hStep with
      | install =>
          rw [List.length_append] at hNew
          rw [ih (Nat.le_of_add_right_le hNew)]
          rfl
      | bus =>
          rw [ih hNew]
          rfl
      | next | «continue» | unwind =>
          rw [List.length_set] at hNew
          rw [ih hNew]
          rfl
      | perform hTask =>
          rw [List.length_set] at hNew
          rw [ih hNew, Event.effect?,
            if_neg (hOther hTask hNew)]
          rfl

theorem accounts_of_reachable
    (hReach : (lts binding).Reachable trace s)
    (hTask : s.tasks[t]? = some task) :
    task.Accounts binding trace t := by
  induction hReach generalizing t task with
  | initial hInitial =>
      subst hInitial
      cases hTask
  | @step trace s s' e hReach hStep ih =>
      have hCons :=
        consistent_of_reachable (router_reachable hReach)
      cases hStep with
      | @bus event router hMove hLeaves =>
          refine (ih hTask).keep ?_ rfl
          cases event with
          | received channel message =>
              exact if_neg fun hSame => hLeaves task
                (List.mem_of_getElem? hTask) hSame.symm
          | _ => rfl
      | @install pattern group channel router hMove =>
          rcases Lists.getElem?_append_singleton_eq_some.mp
              hTask with hOld | ⟨rfl, rfl⟩
          · exact (ih hOld).keep rfl rfl
          · rcases hMove.joins hCons rfl with ⟨rfl, _, _⟩
            have hNone :
                messagesFrom s.router.channels.length
                  trace = [] := by
              unfold messagesFrom
              rw [LocalRouter.receivedFrom_eq_nil
                (router_reachable hReach) (Nat.le_refl _)]
              rfl
            unfold Task.Accounts
            rw [messagesFrom_append, effects_append, hNone,
              effects_eq_nil hReach (Nat.le_refl _)]
            exact ⟨rfl, rfl⟩
      | @next t' busy message router hBusy hPhase hMove =>
          rcases (Lists.getElem?_set_eq_some hBusy).mp hTask
            with ⟨rfl, rfl⟩ | ⟨hNe, hOld⟩
          · rcases ih hBusy with ⟨hProgress, hPosition⟩
            rw [hPhase] at hProgress
            unfold Task.Accounts
            rw [messagesFrom_append, effects_append]
            simp only [Event.bus?, Event.effect?,
              Option.bind_some, LocalRouter.Event.received?,
              if_true, Option.map_some, Option.toList_some,
              Option.toList_none, List.append_nil,
              List.length_append, List.length_singleton]
            rw [hPosition]
            exact ⟨hProgress.take _, rfl⟩
          · refine (ih hOld).keep (if_neg ?_) rfl
            intro hSame
            exact hNe (task_of_channel hReach hBusy hOld hSame)
      | @perform t' busy position effect rest panics hBusy
          hPhase =>
          rcases (Lists.getElem?_set_eq_some hBusy).mp hTask
            with ⟨rfl, rfl⟩ | ⟨hNe, hOld⟩
          · rcases ih hBusy with ⟨hProgress, hPosition⟩
            rw [hPhase] at hProgress
            unfold Task.Accounts
            rw [messagesFrom_append, effects_append]
            simp only [Event.bus?, Event.effect?,
              Option.bind_none, if_true, Option.map_none,
              Option.toList_some, Option.toList_none,
              List.append_nil]
            exact ⟨hProgress.perform, hPosition⟩
          · exact (ih hOld).keep rfl (if_neg hNe)
      | @«continue» t' busy position hBusy hPhase =>
          rcases (Lists.getElem?_set_eq_some hBusy).mp hTask
            with ⟨rfl, rfl⟩ | ⟨hNe, hOld⟩
          · rcases (ih hBusy).keep (e := .continued t') rfl rfl
              with ⟨hProgress, hPosition⟩
            rw [hPhase] at hProgress
            exact ⟨hProgress.done, hPosition⟩
          · exact (ih hOld).keep rfl rfl
      | @unwind t' busy position router hBusy hPhase hMove =>
          rcases (Lists.getElem?_set_eq_some hBusy).mp hTask
            with ⟨rfl, rfl⟩ | ⟨hNe, hOld⟩
          · rcases (ih hBusy).keep
                (e := .unwound t' busy.channel) rfl rfl with
              ⟨hProgress, hPosition⟩
            rw [hPhase] at hProgress
            exact ⟨hProgress.done, hPosition⟩
          · exact (ih hOld).keep rfl rfl

end Workers

end Bus

end Qanat

------------------------------------------------------------
-- Workers Share the Messages
------------------------------------------------------------

namespace Qanat

namespace Bus

namespace Workers

open Transition
open Interleaving (ofTag)
open LocalRouter (ChannelId Dealt)
open Router (RouteBinding runRoute)

variable {Value : Type}
variable {binding : TaskId → Nat → RouteBinding Value}
variable {trace : List Event} {s : State}
variable {pattern group : String}
variable {deals : List (ChannelId × RawMessage)}
variable {t : TaskId} {task : Task}

/- What a worker does with all that it is dealt. -/
def work
    (binding : TaskId → Nat → RouteBinding Value)
    (deals : List (ChannelId × RawMessage)) (t : TaskId)
    (task : Task) : List Router.RouteEffect :=
  (runRoute (binding t)
    ((ofTag task.channel deals).map
      routeMessageFromBroker)).effects

/-
  The messages of a group are dealt to its members.  What a
  route of the group has done is what it does first with
  those it is dealt.
-/
structure Shared
    (binding : TaskId → Nat → RouteBinding Value)
    (pattern group : String) (trace : List Event)
    (s : State) (deals : List (ChannelId × RawMessage)) :
    Prop where
  dealt : Dealt pattern group (busEvents trace) s.router deals
  effects : ∀ (t : TaskId) (task : Task),
    s.tasks[t]? = some task →
      Event.installed pattern group task.channel ∈ trace →
        effects t trace <+: work binding deals t task

/- What a worker is dealt is what it takes and a rest. -/
theorem share_of_installed
    (hDealt :
      Dealt pattern group (busEvents trace) s.router deals)
    (hInstalled :
      Event.installed pattern group task.channel ∈ trace) :
    ∃ rest,
      (ofTag task.channel deals).map routeMessageFromBroker =
          messagesFrom task.channel trace ++
            rest.map routeMessageFromBroker ∧
        ∀ queue,
          s.router.channels[task.channel]? =
              some ⟨true, queue⟩ →
            queue = rest := by
  rcases hDealt.share task.channel
      (mem_busEvents hInstalled rfl) with
    ⟨rest, hSame, hQueue⟩
  refine ⟨rest, ?_, hQueue⟩
  rw [← hSame, List.map_append]
  rfl

/-
  Whatever the interleaving, no message of a queue group is
  processed by two of its routes or twice by one, and each
  route processes those it is dealt in the order in which
  they were dispatched.
-/
theorem workers_share_the_messages
    (hReach : (lts binding).Reachable trace s)
    (pattern group : String) :
    ∃ deals, Shared binding pattern group trace s deals := by
  rcases LocalRouter.group_stream_law
      (router_reachable hReach) pattern group with
    ⟨deals, hDealt⟩
  refine ⟨deals, hDealt, ?_⟩
  intro t task hTask hInstalled
  rcases share_of_installed hDealt hInstalled with
    ⟨rest, hShare, _⟩
  unfold work
  rw [hShare]
  exact (accounts_of_reachable hReach hTask).1.isPrefix _

end Workers

end Bus

end Qanat

------------------------------------------------------------
-- At Rest
------------------------------------------------------------

namespace Qanat

namespace Bus

namespace Workers

open Transition
open LocalRouter (Channel ChannelId Dealt)
open Router (RouteBinding)
open Router.Loop (Phase)

variable {Value : Type}
variable {binding : TaskId → Nat → RouteBinding Value}
variable {trace : List Event} {s s' : State}
variable {pattern group : String}

/- What the tasks do; who dispatches and joins is outside. -/
def Event.IsWork : Event → Prop
| .bus _ => False
| .installed _ _ _ => False
| _ => True

def Task.dues (task : Task) : Nat := task.phase.dues

/- A message that is taken brings five effects at most. -/
def State.workLeft (s : State) : Nat :=
  (s.tasks.map Task.dues).sum +
    6 * (s.router.channels.map
      (fun found => found.queue.length)).sum

/- What a task spends on a step of its own. -/
theorem dues_set
    {t : TaskId} {task : Task}
    (hTask : s.tasks[t]? = some task)
    (position : Nat) (phase : Phase) :
    ((s.tasks.set t
        { task with
          position := position
          phase := phase }).map Task.dues).sum +
        task.phase.dues =
      (s.tasks.map Task.dues).sum + phase.dues :=
  Lists.sum_map_set Task.dues hTask _

theorem Step.spend
    {e : Event}
    (hStep : Step binding s e s')
    (hWork : e.IsWork) :
    s'.workLeft + 1 ≤ s.workLeft := by
  unfold State.workLeft
  cases hStep with
  | bus | install => exact hWork.elim
  | @next t task message router hTask hPhase hMove =>
      have hMoved := dues_set hTask (task.position + 1)
        (.take (binding t) task.position
          (routeMessageFromBroker message))
      have hFew := Phase.dues_take_le (binding t)
        task.position (routeMessageFromBroker message)
      cases hMove with
      | @receive _ _ rest hChannel =>
          have hQueues := Lists.sum_map_set
            (fun found : Channel RawMessage =>
              found.queue.length) hChannel ⟨true, rest⟩
          simp only [List.length_cons] at hQueues
          dsimp only
          omega
  | @perform t task position effect rest panics hTask
      hPhase =>
      have hMoved := dues_set hTask task.position
        (.working position rest panics)
      simp only [hPhase, Phase.dues, List.length_cons]
        at hMoved
      dsimp only
      omega
  | @«continue» t task position hTask hPhase =>
      have hMoved := dues_set hTask task.position .waiting
      simp only [hPhase, Phase.dues, List.length_nil]
        at hMoved
      dsimp only
      omega
  | @unwind t task position router hTask hPhase hMove =>
      have hMoved := dues_set hTask task.position .ended
      simp only [hPhase, Phase.dues, List.length_nil]
        at hMoved
      cases hMove with
      | @drop _ queue hChannel =>
          have hQueues := Lists.sum_map_set
            (fun found : Channel RawMessage =>
              found.queue.length) hChannel ⟨false, []⟩
          simp only [List.length_nil] at hQueues
          dsimp only
          omega

/- The tasks live on what is queued for them. -/
def measure
    (binding : TaskId → Nat → RouteBinding Value) :
    (lts binding).Measure Event.IsWork where
  left := State.workLeft
  spend _ _ _ _ _ hStep hWork := Step.spend hStep hWork

/-
  The routes of a group have done all there is to do with the
  messages they were dealt.
-/
structure Processed
    (binding : TaskId → Nat → RouteBinding Value)
    (pattern group : String) (trace : List Event)
    (s : State) (deals : List (ChannelId × RawMessage)) :
    Prop where
  dealt : Dealt pattern group (busEvents trace) s.router deals
  effects : ∀ (t : TaskId) (task : Task),
    s.tasks[t]? = some task →
      Event.installed pattern group task.channel ∈ trace →
        effects t trace = work binding deals t task

/- A task without work waits in vain or has ended. -/
theorem idle_of_stuck
    (hReach : (lts binding).Reachable trace s)
    (hStuck : (lts binding).Stuck Event.IsWork s)
    {t : TaskId} {task : Task}
    (hTask : s.tasks[t]? = some task) :
    task.phase = .ended ∨
      task.phase = .waiting ∧
        s.router.channels[task.channel]? =
          some ⟨true, []⟩ := by
  rcases listens_of_reachable hReach hTask with
    ⟨hInstalled, hEnded | ⟨queue, hOpen⟩⟩
  · exact Or.inl hEnded
  cases hPhase : task.phase with
  | notInstalled => exact absurd hPhase hInstalled
  | ended => exact Or.inl rfl
  | waiting =>
      refine Or.inr ⟨rfl, ?_⟩
      cases queue with
      | nil => exact hOpen
      | cons message rest =>
          exact absurd trivial (hStuck _ _
            (Step.next hTask hPhase
              (LocalRouter.Step.receive hOpen)))
  | working position rest panics =>
      exfalso
      cases rest with
      | cons effect rest =>
          exact hStuck _ _ (Step.perform hTask hPhase) trivial
      | nil =>
          cases panics with
          | false =>
              exact hStuck _ _ (Step.continue hTask hPhase)
                trivial
          | true =>
              exact hStuck _ _
                (Step.unwind hTask hPhase
                  (LocalRouter.Step.drop hOpen)) trivial

theorem processed_of_stuck
    (hReach : (lts binding).Reachable trace s)
    (hStuck : (lts binding).Stuck Event.IsWork s)
    (pattern group : String) :
    ∃ deals, Processed binding pattern group trace s deals := by
  rcases LocalRouter.group_stream_law
      (router_reachable hReach) pattern group with
    ⟨deals, hDealt⟩
  refine ⟨deals, hDealt, ?_⟩
  intro t task hTask hInstalled
  rcases share_of_installed hDealt hInstalled with
    ⟨rest, hShare, hQueue⟩
  have hProgress := (accounts_of_reachable hReach hTask).1
  unfold work
  rw [hShare]
  rcases idle_of_stuck hReach hStuck hTask with
    hEnded | ⟨hWaiting, hOpen⟩
  · rw [hEnded] at hProgress
    exact hProgress.performed_eq_of_ended _
  · rw [hWaiting] at hProgress
    rw [← hQueue [] hOpen, List.map_nil, List.append_nil]
    exact hProgress.performed_eq_of_waiting

/-
  The tasks come to rest after a bounded amount of work in
  any order.  Then all messages that the routes of a group
  were dealt have been processed, and as long as no member
  has dropped its stream these are all that were dispatched
  since there are members.
-/
theorem dispatched_messages_are_processed
    (hReach : (lts binding).Reachable trace s) :
    (∀ more s',
      (lts binding).Continues Event.IsWork s more s' →
        more.length ≤ s.workLeft ∧
          ((lts binding).Stuck Event.IsWork s' →
            ∀ pattern group, ∃ deals,
              Processed binding pattern group
                (trace ++ more) s' deals)) ∧
      ∃ more s',
        (lts binding).Continues Event.IsWork s more s' ∧
          (lts binding).Stuck Event.IsWork s' := by
  constructor
  · intro more s' hMore
    have hBound := (measure binding).continues_le hReach hMore
    exact ⟨Nat.le_trans (Nat.le_add_right _ _) hBound,
      fun hStuck pattern group =>
        processed_of_stuck (hReach.continue hMore) hStuck
          pattern group⟩
  · exact (measure binding).exists_stuck hReach

/- Two routes of one group that consume every message. -/
def sampleBinding : TaskId → Nat → RouteBinding Unit :=
  fun _ _ =>
    { source := { decode := fun _ => .ok () }
      handler :=
        { consume := fun _ _ => some (.ok ())
          call := fun _ _ _ => none }
      target := none
      errorTarget := none
      failureDecision := .reject
      failureValue := fun _ => .ok () }

def sampleJob (id : UInt64) : RawMessage where
  envelope :=
    { subject := "jobs.a", id := id, messageId := "job"
      headers := none, attempts := 0 }
  payload := []

/- Each of them is dealt a job. -/
def dispatchedTrace : List Event :=
  [.installed "jobs.*" "workers" 0,
    .installed "jobs.*" "workers" 1,
    .bus (.dispatched "jobs.a" (sampleJob 1) (.ok ())),
    .bus (.dispatched "jobs.a" (sampleJob 2) (.ok ()))]

/- The first one has begun. -/
def begunTrace : List Event :=
  [.taken 0 0 (sampleJob 1),
    .performed 0
      (.handled (routeMessageFromBroker (sampleJob 1)))]

theorem sample_reachable :
    (∃ s, (lts sampleBinding).Reachable dispatchedTrace s) ∧
    ∃ s, (lts sampleBinding).Reachable
      (dispatchedTrace ++ begunTrace) s := by
  have h : (lts sampleBinding).Reachable [] State.start :=
    .initial rfl
  have h := h.step
    (Step.install (@LocalRouter.Step.subscribeGroup _ _
      "jobs.*" "workers" 1 rfl))
  have h := h.step
    (Step.install (@LocalRouter.Step.subscribeGroup _ _
      "jobs.*" "workers" 2 rfl))
  have h := h.step
    (Step.bus (@LocalRouter.Step.dispatch _ _ "jobs.a"
      (sampleJob 1)) trivial)
  have h := h.step
    (Step.bus (@LocalRouter.Step.dispatch _ _ "jobs.a"
      (sampleJob 2)) trivial)
  refine ⟨⟨_, h⟩, ?_⟩
  have h := h.step
    (@Step.next _ _ _ 0 _ (sampleJob 1) _ rfl rfl
      (@LocalRouter.Step.receive _ _ 0 _ [] rfl))
  have h := h.step
    (@Step.perform _ _ _ 0 _ _ _ _ _ rfl rfl)
  exact ⟨_, h⟩

theorem workers_share_the_messages_sample :
    ∃ s deals,
      (lts sampleBinding).Reachable
          (dispatchedTrace ++ begunTrace) s ∧
        Shared sampleBinding "jobs.*" "workers"
          (dispatchedTrace ++ begunTrace) s deals := by
  rcases sample_reachable.2 with ⟨s, hReach⟩
  rcases workers_share_the_messages hReach "jobs.*"
      "workers" with ⟨deals, hShared⟩
  exact ⟨s, deals, hReach, hShared⟩

theorem dispatched_messages_are_processed_sample :
    ∃ s more s' deals,
      (lts sampleBinding).Reachable dispatchedTrace s ∧
        (lts sampleBinding).Continues Event.IsWork s more
          s' ∧
        (lts sampleBinding).Stuck Event.IsWork s' ∧
        Processed sampleBinding "jobs.*" "workers"
          (dispatchedTrace ++ more) s' deals := by
  rcases sample_reachable.1 with ⟨s, hReach⟩
  rcases dispatched_messages_are_processed hReach with
    ⟨hAll, more, s', hMore, hStuck⟩
  rcases (hAll more s' hMore).2 hStuck "jobs.*" "workers"
    with ⟨deals, hProcessed⟩
  exact ⟨s, more, s', deals, hReach, hMore, hStuck,
    hProcessed⟩

end Workers

end Bus

end Qanat
