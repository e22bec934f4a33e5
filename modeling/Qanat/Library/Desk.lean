import Mathlib.Data.List.Induction
import Mathlib.Data.List.Nodup
import Mathlib.Logic.Function.Basic
import Qanat.Library.Channels
import Qanat.Library.Lists

/-
  A desk where values are left under a name and asked for by
  it, and whose clerk takes the commands in their order.

  Asking takes the value away.  What an ask finds is settled
  when it is sent: it depends on the commands sent before it.

  Main declarations:
    * `Desk.lookup`, `Desk.lookup_eq_some_iff`
    * `Desk.lts`, `Desk.found_eq_lookup`
-/

------------------------------------------------------------
-- Commands
------------------------------------------------------------

namespace Transition

namespace Desk

variable {ι α β : Type*}

/- A command, for an ask with the one who asks. -/
inductive Command (ι α β : Type*) where
| register (name : α) (value : β)
| ask (client : ι) (name : α)

namespace Command

def name : Command ι α β → α
| register name _ => name
| ask _ name => name

/- What the command leaves at the desk under its name. -/
def value? : Command ι α β → Option β
| register _ value => some value
| ask _ _ => none

def registers? : Command ι α β → Option α
| register name _ => some name
| ask _ _ => none

def client? : Command ι α β → Option ι
| register _ _ => none
| ask client _ => some client

end Command

variable [DecidableEq α]

/- What the last command about a name has left there. -/
def lookup (name : α) (commands : List (Command ι α β)) :
    Option β :=
  (commands.reverse.find? (fun c => c.name = name)).bind
    Command.value?

@[simp]
theorem lookup_nil (name : α) :
    lookup name ([] : List (Command ι α β)) = none :=
  rfl

@[simp]
theorem lookup_append_singleton
    (name : α) (commands : List (Command ι α β))
    (command : Command ι α β) :
    lookup name (commands ++ [command]) =
      if command.name = name then command.value?
      else lookup name commands := by
  unfold lookup
  by_cases hName : command.name = name <;> simp [hName]

/- What is found was left by the last or by the first part. -/
theorem lookup_append_cases
    {name : α} {first second : List (Command ι α β)}
    {value : β}
    (hFound : lookup name (first ++ second) = some value) :
    .register name value ∈ second ∨
      lookup name first = some value := by
  induction second using List.reverseRecOn with
  | nil => exact Or.inr (by simpa using hFound)
  | append_singleton second command ih =>
      rw [← List.append_assoc, lookup_append_singleton]
        at hFound
      by_cases hName : command.name = name
      · rw [if_pos hName] at hFound
        cases command with
        | register =>
            cases hName
            cases hFound
            exact Or.inl
              (List.mem_append_right _ List.mem_cons_self)
        | ask => cases hFound
      · rw [if_neg hName] at hFound
        rcases ih hFound with hMem | hFirst
        · exact Or.inl (List.mem_append_left _ hMem)
        · exact Or.inr hFirst

/-
  If a name is registered at most once, its value is there
  from then on until it is asked for.
-/
theorem lookup_eq_some_iff
    {commands : List (Command ι α β)}
    (hOnce : (commands.filterMap Command.registers?).Nodup)
    (name : α) (value : β) :
    lookup name commands = some value ↔
      .register name value ∈ commands ∧
        ∀ client, ¬ Precedes (.register name value)
          (.ask client name) commands := by
  induction commands using List.reverseRecOn with
  | nil => simp
  | append_singleton commands command ih =>
      rw [List.filterMap_append, List.nodup_append] at hOnce
      have hOld := ih hOnce.1
      rw [lookup_append_singleton]
      simp only [precedes_append_singleton_iff,
        List.mem_append, List.mem_singleton]
      cases command with
      | register name' value' =>
          by_cases hName : name' = name
          · subst hName
            -- the name is registered now for the first time
            have hFresh : ∀ v,
                Command.register name' v ∉ commands := by
              intro v hMem
              exact hOnce.2.2 name'
                (List.mem_filterMap.mpr ⟨_, hMem, rfl⟩) name'
                (by simp [Command.registers?]) rfl
            have hUnasked : ∀ client, ¬ Precedes
                (.register name' value)
                (.ask client name') commands :=
              fun client hOrder =>
                hFresh value hOrder.mem_left
            simp [Command.name, Command.value?, hFresh,
              hUnasked, eq_comm]
          · have hNe : name ≠ name' := Ne.symm hName
            simp [Command.name, hName, hNe, hOld]
      | ask client name' =>
          by_cases hName : name' = name
          · subst hName
            simp only [Command.name, Command.value?, if_true,
              reduceCtorEq, or_false, false_iff, not_and,
              not_forall, not_not]
            intro hMem
            exact ⟨client, Or.inr ⟨hMem, rfl⟩⟩
          · have hNe : name ≠ name' := Ne.symm hName
            simp [Command.name, hName, hNe, hOld]

end Desk

end Transition

------------------------------------------------------------
-- The Clerk
------------------------------------------------------------

namespace Transition

namespace Desk

variable {ι α β : Type*}

/- The commands sent and not taken, and what is at the desk. -/
structure State (ι α β : Type*) where
  queue : List (Command ι α β)
  table : α → Option β

inductive Event (ι α β : Type*) where
| sent (command : Command ι α β)
| registered (name : α) (value : β)
| asked (client : ι) (name : α) (found : Option β)

/- The command that the clerk takes. -/
def Event.taken? : Event ι α β → Option (Command ι α β)
| sent _ => none
| registered name value => some (.register name value)
| asked client name _ => some (.ask client name)

def Event.sent? : Event ι α β → Option (Command ι α β)
| sent command => some command
| _ => none

variable [DecidableEq α]

inductive Step :
    State ι α β → Event ι α β → State ι α β → Prop where
| send {s : State ι α β} (command : Command ι α β) :
    Step s (.sent command)
      { s with queue := s.queue ++ [command] }
| register
    {s : State ι α β} {name : α} {value : β}
    {rest : List (Command ι α β)} :
    s.queue = .register name value :: rest →
    Step s (.registered name value)
      { queue := rest
        table := Function.update s.table name (some value) }
| ask
    {s : State ι α β} {client : ι} {name : α}
    {rest : List (Command ι α β)} :
    s.queue = .ask client name :: rest →
    Step s (.asked client name (s.table name))
      { queue := rest
        table := Function.update s.table name none }

def lts (ι α β : Type*) [DecidableEq α] :
    Lts (State ι α β) (Event ι α β) where
  initial s := s = { queue := [], table := fun _ => none }
  step := Step

theorem step_ask
    {table : α → Option β} (client : ι) {name : α}
    {found : Option β} (rest : List (Command ι α β))
    (hFound : table name = found) :
    (lts ι α β).step
      { queue := .ask client name :: rest, table := table }
      (.asked client name found)
      { queue := rest
        table := Function.update table name none } := by
  subst hFound
  exact Step.ask rfl

/- Who finds nothing takes nothing away. -/
theorem step_miss
    {table : α → Option β} (client : ι) {name : α}
    (rest : List (Command ι α β))
    (hNone : table name = none) :
    (lts ι α β).step
      { queue := .ask client name :: rest, table := table }
      (.asked client name none)
      { queue := rest, table := table } := by
  have hAsk := step_ask client rest hNone
  rwa [← hNone, Function.update_eq_self, hNone] at hAsk

variable {trace : List (Event ι α β)} {s : State ι α β}

theorem sent_eq
    (hReach : (lts ι α β).Reachable trace s) :
    trace.filterMap Event.sent? =
      trace.filterMap Event.taken? ++ s.queue := by
  apply hReach.fifo Event.sent? Event.taken? State.queue
  · rintro s rfl
    rfl
  · intro trace s e s' _ hStep
    cases hStep with
    | send => simp [Event.sent?, Event.taken?]
    | register hQueue =>
        simp [hQueue, Event.sent?, Event.taken?]
    | ask hQueue => simp [hQueue, Event.sent?, Event.taken?]

/- The table is what the commands taken have left. -/
theorem table_eq_lookup
    (hReach : (lts ι α β).Reachable trace s) (name : α) :
    s.table name =
      lookup name (trace.filterMap Event.taken?) := by
  induction hReach with
  | initial hInitial =>
      subst hInitial
      rfl
  | @step trace s s' e hReach hStep ih =>
      cases hStep with
      | send =>
          simpa [List.filterMap_cons, Event.taken?] using ih
      | @register name' value =>
          by_cases hName : name' = name
          · subst hName
            simp [Event.taken?, Command.name, Command.value?]
          · have hNe : name ≠ name' := Ne.symm hName
            simpa [Event.taken?, Command.name, hName, hNe]
              using ih
      | @ask client name' =>
          by_cases hName : name' = name
          · subst hName
            simp [Event.taken?, Command.name, Command.value?]
          · have hNe : name ≠ name' := Ne.symm hName
            simpa [Event.taken?, Command.name, hName, hNe]
              using ih

/- What has been left is at the desk or on its way there. -/
theorem held_of_lookup
    (hReach : (lts ι α β).Reachable trace s)
    {name : α} {value : β}
    (hLeft :
      lookup name (trace.filterMap Event.sent?) =
        some value) :
    .register name value ∈ s.queue ∨
      s.table name = some value := by
  rw [sent_eq hReach] at hLeft
  rw [table_eq_lookup hReach]
  exact lookup_append_cases hLeft

/-
  An ask finds what the commands sent before it have left,
  whatever is sent after it and whenever it is taken.
-/
theorem found_eq_lookup
    {sent sent' taken taken' : List (Event ι α β)}
    {client : ι} {name name' : α} {found : Option β}
    (hReach : (lts ι α β).Reachable trace s)
    (hClients :
      ((trace.filterMap Event.sent?).filterMap
        Command.client?).Nodup)
    (hSent :
      trace = sent ++ .sent (.ask client name) :: sent')
    (hTaken :
      trace = taken ++ .asked client name' found :: taken') :
    name' = name ∧
      found = lookup name (sent.filterMap Event.sent?) := by
  have hFifo := sent_eq hReach
  have hCommands :
      trace.filterMap Event.sent? =
        sent.filterMap Event.sent? ++ .ask client name ::
          sent'.filterMap Event.sent? := by
    rw [hSent, List.filterMap_append]
    rfl
  have hTakes :
      trace.filterMap Event.taken? =
        taken.filterMap Event.taken? ++ .ask client name' ::
          taken'.filterMap Event.taken? := by
    rw [hTaken, List.filterMap_append]
    rfl
  rw [hCommands] at hClients
  rw [hCommands, hTakes, List.append_assoc, List.cons_append]
    at hFifo
  rcases Lists.eq_of_split hClients hFifo rfl rfl with
    ⟨hBefore, hCommand, _⟩
  cases hCommand
  refine ⟨rfl, ?_⟩
  rcases hReach.before hTaken with ⟨r, r', hReached, hStep⟩
  rw [hBefore, ← table_eq_lookup hReached]
  cases hStep
  rfl

end Desk

end Transition
