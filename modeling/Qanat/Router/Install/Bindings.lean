import Qanat.Router.Install.Model

/-
  `Router::install` over the bindings of a router.

  A binding gives its source up before the source is opened
  and its partition after that; an error leaves the loop at
  once.  What the sources answer is a parameter of the call.

  Main declarations:
    * `Binding`, `InstalledTask`, `Router`
    * `Router.install`
    * `Router.install_of_open`, `Router.install_of_first`
    * `Router.install_never_atomic`
-/

------------------------------------------------------------
-- Installing
------------------------------------------------------------

namespace Qanat

namespace Router

/- The resolver of a route and the number of its domain. -/
structure PartitionBinding (Value : Type) where
  partitioner : Nat
  resolver : PartitionResolver Value

/- The binding of a route, with what `install` takes of it. -/
structure Binding (Value : Type) where
  source : Option (RouteSource Value)
  handler : RouteHandler Value
  target : Option (RouteTarget Value)
  errorTarget : Option (RouteTarget Value)
  failureDecision : DeliveryDecision
  failureValue : RouteFailure → Except String Value
  partition : Option (PartitionBinding Value)

/- A task that processes what its subscription yields. -/
structure InstalledTask (Value : Type) where
  route : RouteBinding Value
  subscription : List RouteMessage
  partition : Option (PartitionBinding Value)

variable {Value : Type}

/- The task that is spawned for a binding. -/
def Binding.task
    (binding : Binding Value) (source : RouteSource Value)
    (subscription : List RouteMessage) :
    InstalledTask Value where
  route :=
    { source := source
      handler := binding.handler
      target := binding.target
      errorTarget := binding.errorTarget
      failureDecision := binding.failureDecision
      failureValue := binding.failureValue }
  subscription := subscription
  partition := binding.partition

def alreadyInstalled : BusError :=
  .internal "route is already installed"

/- What the sources answer, by the position of their binding. -/
abbrev Opens := Nat → Except BusError (List RouteMessage)

/- The loop of `install` from a position on. -/
def installFrom (opens : Opens) :
    Nat → List (Binding Value) →
      List (Binding Value) × List (InstalledTask Value) ×
        Except BusError Unit
| _, [] => ([], [], .ok ())
| position, binding :: rest =>
    match binding.source with
    | none => (binding :: rest, [], .error alreadyInstalled)
    | some source =>
        match opens position with
        | .error error =>
            ({ binding with source := none } :: rest, [],
              .error error)
        | .ok subscription =>
            let (installed, tasks, result) :=
              installFrom opens (position + 1) rest
            ({ binding with
                source := none
                partition := none } :: installed,
              binding.task source subscription :: tasks,
              result)

end Router

structure Router (Value : Type) where
  bindings : List (Router.Binding Value)
  tasks : List (Router.InstalledTask Value)

namespace Router

variable {Value : Type}

def install (opens : Opens) (router : Router Value) :
    Router Value × Except BusError Unit :=
  let (bindings, tasks, result) :=
    installFrom opens 0 router.bindings
  ({ bindings := bindings, tasks := router.tasks ++ tasks },
    result)

end Router

end Qanat

------------------------------------------------------------
-- The First Failure
------------------------------------------------------------

namespace Qanat

namespace Router

variable {Value : Type}

/- What is left of a binding whose route is installed. -/
def Binding.emptied (binding : Binding Value) :
    Binding Value :=
  { binding with
    source := none
    partition := none }

/- Every binding still has its source. -/
def Uninstalled (bindings : List (Binding Value)) : Prop :=
  ∀ binding ∈ bindings, binding.source ≠ none

/- If all sources open, each binding has one task. -/
theorem installFrom_of_open
    {opens : Opens} {position : Nat}
    {bindings : List (Binding Value)}
    (hSources : Uninstalled bindings)
    (hOpens : ∀ i < bindings.length,
      ∃ subscription,
        opens (position + i) = .ok subscription) :
    ∃ tasks,
      installFrom opens position bindings =
          (bindings.map Binding.emptied, tasks, .ok ()) ∧
        List.Forall₂
          (fun binding task =>
            ∃ source subscription,
              binding.source = some source ∧
                task = binding.task source subscription)
          bindings tasks := by
  induction bindings generalizing position with
  | nil => exact ⟨[], rfl, List.Forall₂.nil⟩
  | cons binding rest ih =>
      have hRest : Uninstalled rest := fun other hMem =>
        hSources other (List.mem_cons_of_mem _ hMem)
      rcases hOpens 0 (Nat.succ_pos _) with
        ⟨subscription, hOpen⟩
      have hLater : ∀ i < rest.length,
          ∃ subscription,
            opens (position + 1 + i) = .ok subscription := by
        intro i hLt
        rw [Nat.add_assoc, Nat.add_comm 1 i]
        exact hOpens (i + 1) (Nat.succ_lt_succ hLt)
      rcases ih hRest hLater with ⟨tasks, hTasks, hEach⟩
      cases hSource : binding.source with
      | none =>
          exact absurd hSource
            (hSources binding List.mem_cons_self)
      | some source =>
          refine ⟨binding.task source subscription :: tasks,
            ?_, ?_⟩
          · rw [Nat.add_zero] at hOpen
            simp only [installFrom, hSource, hOpen, hTasks]
            rfl
          · exact List.Forall₂.cons
              ⟨source, subscription, hSource, rfl⟩ hEach

/-
  The first source that fails to open ends the loop: the
  routes before it run, its own binding has lost the source,
  and the others are as they were.
-/
theorem installFrom_of_failure
    {opens : Opens} {position failing : Nat}
    {bindings : List (Binding Value)} {error : BusError}
    (hSources : Uninstalled bindings)
    (hFailing : failing < bindings.length)
    (hFails : opens (position + failing) = .error error) :
    ∃ before binding after tasks first,
      bindings = before ++ binding :: after ∧
        before.length ≤ failing ∧
        installFrom opens position bindings =
          (before.map Binding.emptied ++
              { binding with source := none } :: after,
            tasks, .error first) ∧
        tasks.length = before.length := by
  induction bindings generalizing position failing with
  | nil => exact absurd hFailing (Nat.not_lt_zero _)
  | cons binding rest ih =>
      have hRest : Uninstalled rest := fun other hMem =>
        hSources other (List.mem_cons_of_mem _ hMem)
      cases hSource : binding.source with
      | none =>
          exact absurd hSource
            (hSources binding List.mem_cons_self)
      | some source =>
          cases hOpen : opens position with
          | error first =>
              refine ⟨[], binding, rest, [], first, rfl,
                Nat.zero_le _, ?_, rfl⟩
              simp only [installFrom, hSource, hOpen]
              rfl
          | ok subscription =>
              cases failing with
              | zero =>
                  rw [Nat.add_zero, hOpen] at hFails
                  cases hFails
              | succ failing =>
                  rw [Nat.add_comm failing 1,
                    ← Nat.add_assoc] at hFails
                  rcases ih hRest
                      (Nat.lt_of_succ_lt_succ hFailing)
                      hFails with
                    ⟨before, lost, after, tasks, first,
                      rfl, hBefore, hInstall, hLength⟩
                  refine ⟨binding :: before, lost, after,
                    binding.task source subscription :: tasks,
                    first, rfl, Nat.succ_le_succ hBefore,
                    ?_, congrArg Nat.succ hLength⟩
                  simp only [installFrom, hSource, hOpen,
                    hInstall]
                  rfl

/- A router can be installed once. -/
theorem install_of_open
    {opens : Opens} {router : Router Value}
    (hSources : Uninstalled router.bindings)
    (hOpens : ∀ i < router.bindings.length,
      ∃ subscription, opens i = .ok subscription) :
    ∃ tasks,
      router.install opens =
          ({ bindings := router.bindings.map Binding.emptied
             tasks := router.tasks ++ tasks },
            .ok ()) ∧
        List.Forall₂
          (fun binding task =>
            ∃ source subscription,
              binding.source = some source ∧
                task = binding.task source subscription)
          router.bindings tasks := by
  have hAll : ∀ i < router.bindings.length,
      ∃ subscription, opens (0 + i) = .ok subscription := by
    simpa using hOpens
  rcases installFrom_of_open hSources hAll with
    ⟨tasks, hInstall, hEach⟩
  refine ⟨tasks, ?_, hEach⟩
  rw [install, hInstall]

/- A first binding without a source changes nothing. -/
theorem install_of_first
    {binding : Binding Value} {rest : List (Binding Value)}
    {router : Router Value}
    (hBindings : router.bindings = binding :: rest)
    (hSource : binding.source = none) (opens : Opens) :
    router.install opens =
      (router, .error alreadyInstalled) := by
  unfold install
  rw [hBindings]
  simp only [installFrom, hSource, List.append_nil]
  rw [← hBindings]

end Router

end Qanat

------------------------------------------------------------
-- Atomicity
------------------------------------------------------------

namespace Qanat

namespace Router

variable {Value : Type}

/-
  An installation that fails leaves no task behind and every
  source and partition in its place, and a later one in which
  every source opens installs each route once.
-/
structure Atomic
    (router : Router Value) (opens : Opens) : Prop where
  tasks : (router.install opens).1.tasks = router.tasks
  kept :
    (router.install opens).1.bindings.map
        (fun binding => (binding.source, binding.partition)) =
      router.bindings.map
        (fun binding => (binding.source, binding.partition))
  retry :
    ∀ opens' : Opens,
      (∀ i < router.bindings.length,
        ∃ subscription, opens' i = .ok subscription) →
        ((router.install opens).1.install opens').2 =
            .ok () ∧
          ((router.install opens).1.install
              opens').1.tasks.length =
            router.tasks.length + router.bindings.length

/-
  No installation in which a source fails to open is atomic:
  that source is lost, the routes before it run, and no later
  installation installs anything.
-/
theorem install_never_atomic
    {router : Router Value} {opens : Opens}
    {failing : Nat} {error : BusError}
    (hSources : Uninstalled router.bindings)
    (hFailing : failing < router.bindings.length)
    (hFails : opens failing = .error error) :
    ¬ router.Atomic opens ∧
      ∃ before binding after tasks first,
        router.bindings = before ++ binding :: after ∧
          before.length ≤ failing ∧
          router.install opens =
            ({ bindings :=
                before.map Binding.emptied ++
                  { binding with source := none } :: after
               tasks := router.tasks ++ tasks },
              .error first) ∧
          tasks.length = before.length ∧
          ∀ opens',
            (router.install opens).1.install opens' =
              ((router.install opens).1,
                .error alreadyInstalled) := by
  have hAt : opens (0 + failing) = .error error := by
    rwa [Nat.zero_add]
  rcases installFrom_of_failure hSources hFailing hAt with
    ⟨before, binding, after, tasks, first, hBindings, hFirst,
      hLoop, hLength⟩
  have hInstall :
      router.install opens =
        ({ bindings :=
            before.map Binding.emptied ++
              { binding with source := none } :: after
           tasks := router.tasks ++ tasks },
          .error first) := by
    rw [install, hLoop]
  -- whichever failed, the first binding has no source now
  have hAgain : ∀ opens',
      (router.install opens).1.install opens' =
        ((router.install opens).1,
          .error alreadyInstalled) := by
    intro opens'
    rw [hInstall]
    cases before with
    | nil => exact install_of_first rfl rfl opens'
    | cons first rest => exact install_of_first rfl rfl opens'
  refine ⟨?_, before, binding, after, tasks, first, hBindings,
    hFirst, hInstall, hLength, hAgain⟩
  intro hAtomic
  have hKept := hAtomic.kept
  rw [hInstall, hBindings] at hKept
  simp only [List.map_append, List.map_map,
    List.map_cons] at hKept
  have hLost := (List.append_inj hKept (by simp)).2
  rw [List.cons.injEq, Prod.mk.injEq] at hLost
  have hMem : binding ∈ router.bindings := by
    simp [hBindings]
  exact hSources binding hMem hLost.1.1.symm

/- A binding that consumes what its source yields. -/
def consumingBinding : Binding Unit where
  source := some {}
  handler :=
    { consume := fun _ _ => some (.ok ())
      call := fun _ _ _ =>
        some (.error (RouteError.handler "no target")) }
  target := none
  errorTarget := none
  failureDecision := .reject
  failureValue := fun _ => .ok ()
  partition := none

def pairOfRoutes : Router Unit where
  bindings := [consumingBinding, consumingBinding]
  tasks := []

/- The source of the second binding cannot be opened. -/
def secondFails : Opens
| 0 => .ok []
| _ => .error (.connection "refused")

theorem install_leaves_first_route :
    ¬ pairOfRoutes.Atomic secondFails ∧
      (pairOfRoutes.install secondFails).2 =
        .error (.connection "refused") ∧
      (pairOfRoutes.install secondFails).1.tasks.length = 1 ∧
      ((pairOfRoutes.install secondFails).1.install
          (fun _ => .ok [])).2 =
        .error alreadyInstalled := by
  refine ⟨?_, rfl, rfl, rfl⟩
  intro hAtomic
  have hTasks := congrArg List.length hAtomic.tasks
  cases hTasks

theorem install_never_atomic_pair :
    ¬ pairOfRoutes.Atomic secondFails := by
  have hSources : Uninstalled pairOfRoutes.bindings := by
    intro binding hMem
    have hSame : binding = consumingBinding := by
      simpa [pairOfRoutes] using hMem
    rw [hSame]
    nofun
  exact (@install_never_atomic Unit pairOfRoutes secondFails 1
    (.connection "refused") hSources (by decide) rfl).1

end Router

end Qanat
