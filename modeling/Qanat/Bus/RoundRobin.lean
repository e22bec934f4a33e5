import Qanat.Bus.Dispatch
import Qanat.Library.Progress
import Qanat.Library.Rotation

/-
  A queue group takes turns, whatever else is done to the
  table meanwhile.

  Main declarations:
    * `SubjectRouter.Event`, `SubjectRouter.lts`
    * `SubjectRouter.group?`, `SubjectRouter.KeepsMembers`
    * `SubjectRouter.Step.turn`
    * `SubjectRouter.groups_take_turns`
    * `LocalRouter.table_reachable`
-/

------------------------------------------------------------
-- Operations
------------------------------------------------------------

namespace Qanat

namespace Bus

namespace SubjectRouter

open Transition

/- The operations of a table with what they return. -/
inductive Event where
| fanoutAdded (pattern : String) (id : ConsumerId)
| queueBound
    (pattern queue : String) (result : Except BusError Unit)
| consumerAdded
    (queue : String) (result : Except BusError ConsumerId)
| consumerRemoved (id : ConsumerId)
| routed (subject : String) (targets : List ConsumerId)

inductive Step :
    SubjectRouter → Event → SubjectRouter → Prop where
| addFanout {router : SubjectRouter} {pattern : String} :
    Step router
      (.fanoutAdded pattern (router.addFanout pattern).2)
      (router.addFanout pattern).1
| bindQueue
    {router router' : SubjectRouter}
    {pattern queue : String} :
    router.bindQueue pattern queue = .ok router' →
    Step router (.queueBound pattern queue (.ok ())) router'
| rejectQueue
    {router : SubjectRouter} {pattern queue : String}
    {error : BusError} :
    router.bindQueue pattern queue = .error error →
    Step router (.queueBound pattern queue (.error error))
      router
| addConsumer {router : SubjectRouter} {queue : String} :
    Step router
      (.consumerAdded queue (router.addConsumer queue).2)
      (router.addConsumer queue).1
| removeConsumer
    {router : SubjectRouter} {id : ConsumerId} :
    Step router (.consumerRemoved id)
      (router.removeConsumer id)
| route {router : SubjectRouter} {subject : String} :
    Step router (.routed subject (router.route subject).2)
      (router.route subject).1

/- A table and everything that is done to it. -/
def lts : Lts SubjectRouter Event where
  initial router := router = new
  step := Step

/- An id is used up also where no consumer joins. -/
theorem Valid.alloc
    {router : SubjectRouter}
    (hValid : router.Valid) :
    (router.join router.bindings).Valid where
  labels_nodup := hValid.labels_nodup
  consumers_nodup := hValid.consumers_nodup
  consumers_lt := by
    intro id hMem
    exact Nat.lt_succ_of_lt (hValid.consumers_lt id hMem)
  fanout_nonempty := hValid.fanout_nonempty

theorem Valid.addConsumer
    {router : SubjectRouter}
    (hValid : router.Valid) (queue : String) :
    (router.addConsumer queue).1.Valid := by
  by_cases hBound :
      ∃ b ∈ router.bindings, b.label = .group queue
  · exact (addConsumer_spec hValid hBound).2.1
  · have hNone : ∀ b ∈ router.bindings,
        Binding.isQueue queue b = false := by
      intro b hMem
      rw [Bool.eq_false_iff, Ne, Binding.isQueue_iff]
      exact fun hLabel => hBound ⟨b, hMem, hLabel⟩
    have hModify :=
      (modifyFirst_eq_none_iff (f :=
        Binding.push router.nextId)).mpr hNone
    unfold SubjectRouter.addConsumer allocId
    simp only [hModify]
    exact hValid.alloc

theorem Valid.step
    {router router' : SubjectRouter} {e : Event}
    (hValid : router.Valid)
    (hStep : Step router e router') :
    router'.Valid := by
  cases hStep with
  | addFanout => exact (addFanout_spec hValid _).2.1
  | bindQueue hBind => exact (bindQueue_spec hValid hBind).1
  | rejectQueue _ => exact hValid
  | addConsumer => exact hValid.addConsumer _
  | removeConsumer => exact (removeConsumer_spec hValid _).1
  | route => exact (route_spec hValid _).1

theorem valid_of_reachable
    {trace : List Event} {router : SubjectRouter}
    (hReach : lts.Reachable trace router) :
    router.Valid := by
  apply hReach.stateInvariant
  · rintro router rfl
    exact Valid.new
  · intro router e router' hValid hStep
    exact hValid.step hStep

end SubjectRouter

end Bus

end Qanat

------------------------------------------------------------
-- The Binding of a Group
------------------------------------------------------------

namespace Qanat

namespace Bus

theorem find?_modifyFirst_of_not
    {α : Type} {p q : α → Bool} {f : α → α}
    {l l' : List α}
    (hModify : modifyFirst p f l = some l')
    (hOther : ∀ a, p a = true →
      q a = false ∧ q (f a) = false) :
    l'.find? q = l.find? q := by
  rcases modifyFirst_eq_some hModify with
    ⟨front, a, back, rfl, _, hHere, rfl⟩
  rcases hOther a hHere with ⟨hBefore, hAfter⟩
  simp [List.find?_append, hBefore, hAfter]

theorem find?_modifyFirst_self
    {α : Type} {p : α → Bool} {f : α → α} {l l' : List α}
    (hModify : modifyFirst p f l = some l')
    (hKept : ∀ a, p (f a) = p a) :
    l'.find? p = (l.find? p).map f := by
  rcases modifyFirst_eq_some hModify with
    ⟨front, a, back, rfl, hFront, hHere, rfl⟩
  have hNone : front.find? p = none :=
    List.find?_eq_none.mpr (by simpa using hFront)
  simp [List.find?_append, hNone, hHere, hKept]

namespace SubjectRouter

/- The binding of a queue, as the table looks it up. -/
def group? (router : SubjectRouter) (queue : String) :
    Option Binding :=
  router.bindings.find? (Binding.isQueue queue)

variable {router router' : SubjectRouter}
variable {queue : String} {b : Binding}

theorem mem_of_group?
    (hGroup : router.group? queue = some b) :
    b ∈ router.bindings ∧ b.queue = some queue :=
  ⟨List.mem_of_find?_eq_some hGroup,
    Binding.label_eq_group_iff.mp
      (Binding.isQueue_iff.mp (List.find?_some hGroup))⟩

theorem group?_addFanout
    (hGroup : router.group? queue = some b)
    (pattern : String) :
    (router.addFanout pattern).1.group? queue = some b := by
  unfold addFanout allocId
  cases hModify : modifyFirst (Binding.isFanoutOf pattern)
      (Binding.push router.nextId) router.bindings with
  | some bindings =>
      simp only [hModify]
      refine (find?_modifyFirst_of_not hModify ?_).trans hGroup
      intro a hFanout
      have hNone : a.queue = none :=
        (Binding.label_eq_fanout_iff.mp
          (Binding.isFanoutOf_iff.mp hFanout)).1
      simp [Binding.isQueue, Binding.push, hNone]
  | none =>
      simp only [hModify]
      unfold group? at hGroup ⊢
      rw [List.find?_append, hGroup]
      rfl

theorem group?_bindQueue
    {pattern other : String}
    (hGroup : router.group? queue = some b)
    (hBind : router.bindQueue pattern other = .ok router') :
    router'.group? queue = some b := by
  unfold bindQueue at hBind
  cases hFind : router.bindings.find?
      (Binding.isQueue other) with
  | some found =>
      simp only [hFind] at hBind
      split at hBind
      · cases hBind
      · cases hBind
        exact hGroup
  | none =>
      simp only [hFind] at hBind
      cases hBind
      unfold group? at hGroup ⊢
      rw [List.find?_append, hGroup]
      rfl

theorem group?_addConsumer
    (hGroup : router.group? queue = some b)
    (other : String) :
    (router.addConsumer other).1.group? queue =
      if other = queue then some (b.push router.nextId)
      else some b := by
  unfold addConsumer allocId
  cases hModify : modifyFirst (Binding.isQueue other)
      (Binding.push router.nextId) router.bindings with
  | some bindings =>
      simp only [hModify]
      by_cases hSame : other = queue
      · subst hSame
        rw [if_pos rfl]
        have hFound :=
          find?_modifyFirst_self hModify (fun _ => rfl)
        unfold group? at hGroup
        rwa [hGroup] at hFound
      · rw [if_neg hSame]
        refine (find?_modifyFirst_of_not hModify ?_).trans
          hGroup
        intro a hQueue
        have hOther : a.queue = some other :=
          Binding.label_eq_group_iff.mp
            (Binding.isQueue_iff.mp hQueue)
        simp [Binding.isQueue, Binding.push, hOther, hSame]
  | none =>
      simp only [hModify]
      have hNe : other ≠ queue := by
        rintro rfl
        have hHere := List.find?_some hGroup
        rw [modifyFirst_eq_none_iff.mp hModify b
          (mem_of_group? hGroup).1] at hHere
        cases hHere
      rw [if_neg hNe]
      exact hGroup

theorem group?_removeConsumer
    (router : SubjectRouter) (queue : String)
    (id : ConsumerId) :
    (router.removeConsumer id).group? queue =
      (router.group? queue).map (fun b =>
        { b with
          consumers :=
            b.consumers.filter (fun c => c ≠ id) }) := by
  unfold group? removeConsumer
  rw [List.find?_filter, List.find?_map]
  have hSame :
      ((fun a : Binding =>
          decide ((a.queue.isSome || !a.consumers.isEmpty) =
              true ∧ Binding.isQueue queue a = true)) ∘
        fun b : Binding =>
          { b with
            consumers :=
              b.consumers.filter (fun c => c ≠ id) }) =
        Binding.isQueue queue := by
    funext a
    simp only [Function.comp_apply, Binding.isQueue]
    by_cases hQueue : a.queue = some queue
    · simp [hQueue]
    · simp [hQueue]
  rw [hSame]

theorem group?_route
    (router : SubjectRouter) (queue subject : String) :
    (router.route subject).1.group? queue =
      (router.group? queue).map
        (fun b => (b.route subject).1) := by
  unfold group? route
  rw [List.find?_map]
  have hSame :
      (Binding.isQueue queue ∘
          fun a : Binding => (a.route subject).1) =
        Binding.isQueue queue := by
    funext a
    simp [Binding.isQueue, (a.route_frame subject).1]
  rw [hSame]

end SubjectRouter

end Bus

end Qanat

------------------------------------------------------------
-- Turns
------------------------------------------------------------

namespace Qanat

namespace Bus

namespace SubjectRouter

open Transition

/- The consumers that a routing call chose of a group. -/
def Event.chosen? (b : Binding) :
    Event → Option (List ConsumerId)
| .routed subject targets =>
    if wildcardMatch b.subjectPattern subject then
      some (targets.filter (fun id => id ∈ b.consumers))
    else
      none
| _ => none

/- The operation leaves the consumers of the group alone. -/
def KeepsMembers
    (queue : String) (router : SubjectRouter) (e : Event) :
    Prop :=
  ∀ router', Step router e router' →
    (router'.group? queue).map Binding.consumers =
      (router.group? queue).map Binding.consumers

variable {router router' : SubjectRouter}
variable {queue : String} {b : Binding}

/- Only consumers that join or leave the group change it. -/
theorem keepsMembers_of_apart
    {e : Event}
    (hGroup : router.group? queue = some b)
    (hAdded : ∀ result, e ≠ .consumerAdded queue result)
    (hRemoved :
      ∀ id ∈ b.consumers, e ≠ .consumerRemoved id) :
    KeepsMembers queue router e := by
  intro router' hStep
  cases hStep with
  | addFanout => rw [group?_addFanout hGroup, hGroup]
  | bindQueue hBind =>
      rw [group?_bindQueue hGroup hBind, hGroup]
  | rejectQueue _ => rfl
  | @addConsumer other =>
      have hNe : other ≠ queue := by
        rintro rfl
        exact hAdded _ rfl
      rw [group?_addConsumer hGroup, if_neg hNe, hGroup]
  | @removeConsumer id =>
      have hStay :
          b.consumers.filter (fun c => c ≠ id) =
            b.consumers := by
        rw [List.filter_eq_self]
        intro c hMem
        rw [decide_eq_true_eq]
        rintro rfl
        exact hRemoved c hMem rfl
      rw [group?_removeConsumer, hGroup, Option.map_some,
        hStay]
  | route =>
      rw [group?_route, hGroup, Option.map_some,
        Option.map_some, (b.route_frame _).2.2]
      rfl

/- The targets among the consumers of one binding. -/
theorem Valid.filter_route
    (hValid : router.Valid)
    (hBinding : b ∈ router.bindings)
    (subject : String) :
    (router.route subject).2.filter
        (fun id => id ∈ b.consumers) =
      (b.route subject).2 := by
  rcases List.append_of_mem hBinding with
    ⟨front, back, hBindings⟩
  have hNodup := hValid.consumers_nodup
  unfold consumers at hNodup
  rw [hBindings, List.flatMap_append, List.flatMap_cons,
    List.nodup_append, List.nodup_append] at hNodup
  rcases hNodup with ⟨_, ⟨_, _, hBack⟩, hFront⟩
  have hNone : ∀ others : List Binding,
      (∀ other ∈ others, ∀ id ∈ other.consumers,
        id ∉ b.consumers) →
      (others.flatMap (fun a => (a.route subject).2)).filter
        (fun id => id ∈ b.consumers) = [] := by
    intro others hApart
    rw [List.filter_eq_nil_iff]
    intro id hMem
    rcases List.mem_flatMap.mp hMem with
      ⟨other, hOther, hTarget⟩
    have hNot := hApart other hOther id
      ((other.route_sublist subject).subset hTarget)
    simpa using hNot
  have hAll :
      (b.route subject).2.filter
          (fun id => id ∈ b.consumers) =
        (b.route subject).2 := by
    rw [List.filter_eq_self]
    intro id hMem
    simpa using (b.route_sublist subject).subset hMem
  unfold route
  rw [hBindings, List.flatMap_append, List.flatMap_cons,
    List.filter_append, List.filter_append, hAll,
    hNone front, hNone back, List.nil_append,
    List.append_nil]
  · intro other hOther id hMem hHere
    exact hBack id hHere id
      (List.mem_flatMap.mpr ⟨other, hOther, hMem⟩) rfl
  · intro other hOther id hMem hHere
    exact hFront id
      (List.mem_flatMap.mpr ⟨other, hOther, hMem⟩) id
      (List.mem_append_left _ hHere) rfl

/-
  A step leaves the turn of a group as it is, or is a routing
  call that chooses the consumer whose turn it is.
-/
theorem Step.turn
    {e : Event}
    (hStep : Step router e router')
    (hValid : router.Valid)
    (hGroup : router.group? queue = some b)
    (hMembers : b.consumers ≠ []) :
    ∃ b', router'.group? queue = some b' ∧
      b'.subjectPattern = b.subjectPattern ∧
      ((e.chosen? b = none ∧ b'.rrIndex = b.rrIndex) ∨
        ∃ id, e.chosen? b = some [id] ∧
          b.picked? = some id ∧
          b'.rrIndex = b.rrIndex + 1) := by
  cases hStep with
  | addFanout =>
      exact ⟨b, group?_addFanout hGroup _, rfl,
        Or.inl ⟨rfl, rfl⟩⟩
  | bindQueue hBind =>
      exact ⟨b, group?_bindQueue hGroup hBind, rfl,
        Or.inl ⟨rfl, rfl⟩⟩
  | rejectQueue _ =>
      exact ⟨b, hGroup, rfl, Or.inl ⟨rfl, rfl⟩⟩
  | @addConsumer other =>
      have hAfter := group?_addConsumer hGroup other
      by_cases hSame : other = queue
      · rw [if_pos hSame] at hAfter
        exact ⟨_, hAfter, rfl, Or.inl ⟨rfl, rfl⟩⟩
      · rw [if_neg hSame] at hAfter
        exact ⟨b, hAfter, rfl, Or.inl ⟨rfl, rfl⟩⟩
  | @removeConsumer id =>
      have hAfter := group?_removeConsumer router queue id
      rw [hGroup, Option.map_some] at hAfter
      exact ⟨_, hAfter, rfl, Or.inl ⟨rfl, rfl⟩⟩
  | @route subject =>
      rcases mem_of_group? hGroup with ⟨hBinding, hQueue⟩
      have hChosen :
          Event.chosen? b
              (.routed subject (router.route subject).2) =
            if wildcardMatch b.subjectPattern subject then
              some (b.route subject).2
            else
              none := by
        rw [← hValid.filter_route hBinding]
        rfl
      have hAfter := group?_route router queue subject
      rw [hGroup, Option.map_some] at hAfter
      refine ⟨_, hAfter, (b.route_frame subject).2.1, ?_⟩
      rw [hChosen]
      unfold Binding.route
      by_cases hMatch :
          wildcardMatch b.subjectPattern subject = true
      · right
        rcases Rotation.exists_turn? hMembers b.rrIndex with
          ⟨id, _, hTurn⟩
        have hPicked : b.picked? = some id := hTurn
        exact ⟨id, by simp [hMatch, hQueue, hMembers, hPicked],
          hPicked, by simp [hMatch, hQueue, hMembers]⟩
      · left
        simp [hMatch]

/-
  The choices of a run, by induction on it: each step hands
  the turn on to the rest of the run.
-/
theorem turns_of_continues
    {more : List Event}
    (hMore :
      (lts.restrict (KeepsMembers queue)).Continues
        (fun _ => True) router more router')
    (hValid : router.Valid)
    (hGroup : router.group? queue = some b)
    (hMembers : b.consumers ≠ []) :
    ∃ m, more.filterMap (Event.chosen? b) =
      (Rotation.turns b.consumers b.rrIndex m).map
        (fun id => [id]) := by
  induction hMore generalizing b with
  | refl => exact ⟨0, rfl⟩
  | @step router next router' e more hStep _ _ ih =>
      rcases hStep with ⟨hStep, hKeeps⟩
      rcases Step.turn hStep hValid hGroup hMembers with
        ⟨b', hAfter, hPattern, hTurn⟩
      have hSame : b'.consumers = b.consumers := by
        have hKept := hKeeps next hStep
        rw [hAfter, hGroup] at hKept
        exact Option.some.inj hKept
      have hChosen : Event.chosen? b' = Event.chosen? b := by
        funext e
        cases e <;>
          simp [Event.chosen?, hPattern, hSame]
      rcases ih (hValid.step hStep) hAfter
        (by rwa [hSame]) with ⟨m, hRest⟩
      rw [hChosen, hSame] at hRest
      rcases hTurn with ⟨hNone, hIndex⟩ |
        ⟨id, hSome, hPicked, hIndex⟩
      · rw [hIndex] at hRest
        rw [List.filterMap_cons_none hNone]
        exact ⟨m, hRest⟩
      · rw [hIndex] at hRest
        have hFirst :
            Rotation.turn? b.consumers b.rrIndex = some id :=
          hPicked
        refine ⟨m + 1, ?_⟩
        rw [List.filterMap_cons_some hSome, hRest,
          Rotation.turns, hFirst]
        rfl

/-
  However else the table is used, each routing call with a
  subject that the group matches chooses one of its members.
  The choices go round, and each member has its share.
-/
theorem groups_take_turns
    {trace more : List Event}
    (hReach : lts.Reachable trace router)
    (hGroup : router.group? queue = some b)
    (hMembers : b.consumers ≠ [])
    (hMore :
      (lts.restrict (KeepsMembers queue)).Continues
        (fun _ => True) router more router') :
    ∃ picks : List ConsumerId,
      more.filterMap (Event.chosen? b) =
          picks.map (fun id => [id]) ∧
        (∀ i < picks.length,
          picks[i]? =
            b.consumers[(b.rrIndex + i) %
              b.consumers.length]?) ∧
        ∀ id ∈ b.consumers,
          picks.count id =
              picks.length / b.consumers.length ∨
            picks.count id =
              (picks.length + b.consumers.length - 1) /
                b.consumers.length := by
  have hValid := valid_of_reachable hReach
  have hNodup : b.consumers.Nodup :=
    (List.nodup_flatMap.mp hValid.consumers_nodup).1 b
      (mem_of_group? hGroup).1
  rcases turns_of_continues hMore hValid hGroup hMembers with
    ⟨m, hChosen⟩
  have hLength :=
    Rotation.length_turns hMembers b.rrIndex m
  refine ⟨_, hChosen, ?_, ?_⟩
  · intro i hBound
    rw [hLength] at hBound
    exact Rotation.getElem?_turns hMembers hBound
  · intro id hMem
    rw [hLength]
    exact Rotation.count_turns hNodup hMem b.rrIndex m

/- A group of two workers after `rrIndex` jobs. -/
def workersGroup (rrIndex : Nat) : Binding where
  subjectPattern := "jobs.*"
  queue := some "workers"
  consumers := [1, 2]
  rrIndex := rrIndex

def workersTable (rrIndex : Nat) : SubjectRouter where
  bindings := [workersGroup rrIndex]
  nextId := 3

theorem workersTable_reachable :
    lts.Reachable
      [.queueBound "jobs.*" "workers" (.ok ()),
        .consumerAdded "workers" (.ok 1),
        .consumerAdded "workers" (.ok 2)]
      (workersTable 0) := by
  have hStart : lts.Reachable [] new :=
    Lts.Reachable.initial rfl
  have hBound := hStart.step (@Step.bindQueue new _ "jobs.*"
    "workers" rfl)
  have hFirst := hBound.step (@Step.addConsumer _ "workers")
  exact hFirst.step (@Step.addConsumer _ "workers")

/- Two jobs go to the two workers. -/
theorem groups_take_turns_workers :
    ∃ picks : List ConsumerId,
      [Event.routed "jobs.a" [1],
          .routed "jobs.b" [2]].filterMap
            (Event.chosen? (workersGroup 0)) =
        picks.map (fun id => [id]) ∧
      (∀ i < picks.length, picks[i]? = [1, 2][(0 + i) % 2]?) ∧
      ∀ id ∈ [1, 2], picks.count id = picks.length / 2 ∨
        picks.count id = (picks.length + 2 - 1) / 2 := by
  have hKeeps : ∀ rrIndex subject targets,
      KeepsMembers "workers" (workersTable rrIndex)
        (.routed subject targets) := by
    intro rrIndex subject targets
    exact keepsMembers_of_apart
      (b := workersGroup rrIndex) rfl nofun nofun
  have hFirst :
      (lts.restrict (KeepsMembers "workers")).step
        (workersTable 0) (.routed "jobs.a" [1])
        (workersTable 1) :=
    ⟨@Step.route (workersTable 0) "jobs.a", hKeeps _ _ _⟩
  have hSecond :
      (lts.restrict (KeepsMembers "workers")).step
        (workersTable 1) (.routed "jobs.b" [2])
        (workersTable 2) :=
    ⟨@Step.route (workersTable 1) "jobs.b", hKeeps _ _ _⟩
  exact groups_take_turns (b := workersGroup 0)
    workersTable_reachable rfl (by decide)
    (.step hFirst trivial (.step hSecond trivial .refl))

end SubjectRouter

end Bus

end Qanat

------------------------------------------------------------
-- The Table of the Actor
------------------------------------------------------------

namespace Qanat

namespace Bus

namespace LocalRouter

open Transition

variable {M : Type}

/- A table that operations lead to from the empty one. -/
def Made (router : SubjectRouter) : Prop :=
  ∃ history, SubjectRouter.lts.Reachable history router

theorem Made.step
    {router router' : SubjectRouter}
    {e : SubjectRouter.Event}
    (hMade : Made router)
    (hStep : SubjectRouter.Step router e router') :
    Made router' := by
  rcases hMade with ⟨history, hReach⟩
  exact ⟨_, hReach.step hStep⟩

theorem Made.removeConsumers
    {s : State M}
    (hMade : Made s.router) (dead : List ConsumerId) :
    Made (removeConsumers s dead).router := by
  induction dead generalizing s with
  | nil => exact hMade
  | cons first rest ih =>
      exact ih (s := s.remove first)
        (hMade.step SubjectRouter.Step.removeConsumer)

theorem Made.dispatch
    {s : State M}
    (hMade : Made s.router)
    (subject : String) (message : M) :
    Made (dispatch s subject message).1.router := by
  have hRouted : Made (s.router.route subject).1 :=
    hMade.step SubjectRouter.Step.route
  unfold LocalRouter.dispatch
  cases hReserve : reserve s.senders s.channels
      (s.router.route subject).2 [] [] with
  | full dead =>
      simp only [hReserve]
      exact Made.removeConsumers hRouted dead
  | reserved permits dead =>
      simp only [hReserve]
      exact Made.removeConsumers hRouted dead

theorem Made.subscribeGroup
    {s : State M}
    (hMade : Made s.router) (pattern group : String) :
    Made (subscribeGroup s pattern group).1.router := by
  unfold LocalRouter.subscribeGroup
  cases hBind : s.router.bindQueue pattern group with
  | error error => exact hMade
  | ok router =>
      have hJoined : Made (router.addConsumer group).1 :=
        (hMade.step (SubjectRouter.Step.bindQueue hBind)).step
          SubjectRouter.Step.addConsumer
      rcases hAdd : router.addConsumer group with
        ⟨router', result⟩
      rw [hAdd] at hJoined
      simp only [hAdd]
      cases result <;> exact hJoined

/- The actor does nothing else to its table. -/
theorem table_reachable
    {trace : List (Event M)} {s : State M}
    (hReach : (lts M).Reachable trace s) :
    Made s.router := by
  refine hReach.stateInvariant
    (P := fun s : State M => Made s.router) ?_ ?_
  · rintro s rfl
    exact ⟨[], Lts.Reachable.initial rfl⟩
  · intro s e s' hMade hStep
    cases hStep with
    | dispatch => exact hMade.dispatch _ _
    | subscribe => exact hMade.step SubjectRouter.Step.addFanout
    | subscribeGroup _ => exact hMade.subscribeGroup _ _
    | rejectGroup _ => exact hMade.subscribeGroup _ _
    | receive _ => exact hMade
    | drop _ => exact hMade

end LocalRouter

end Bus

end Qanat
