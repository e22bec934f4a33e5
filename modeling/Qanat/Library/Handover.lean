import Mathlib.Logic.Function.Basic
import Mathlib.Data.List.Basic

/-
  Handing a key over from one generation of owners to the
  next.

  A registry knows, for each key, the owner in charge or the
  generation on its way out.  An owner that wants to leave
  asks first, finishes alone once the registry has agreed,
  and announces that it is gone; only then may a successor
  be appointed.  Requests and announcements are notices in a
  queue.

  `Coherent` is the invariant of that protocol.  It is kept
  by every move below, and it admits at most one owner a
  key at any time.

  Main declarations:
    * `Handover.Roster`, `Handover.Coherent`
    * `Coherent.appoint`, `Coherent.ask`, `Coherent.accept`
    * `Coherent.leave`, `Coherent.vacate`, `Coherent.quit`
    * `Coherent.shutdown`
-/

------------------------------------------------------------
-- Rosters
------------------------------------------------------------

namespace Transition

namespace Handover

/-
  `serving` owners are in charge, `asking` owners are in
  charge and have asked to leave, `retiring` owners have
  been allowed to.
-/
inductive Role where
| serving
| asking
| retiring
| stopped
deriving DecidableEq, Repr

namespace Role

/- The owner is in charge of its key. -/
def InCharge (role : Role) : Prop :=
  role = .serving ∨ role = .asking

/- The owner exists. -/
def Live (role : Role) : Prop :=
  role ≠ .stopped

theorem InCharge.live
    {role : Role}
    (h : role.InCharge) :
    role.Live := by
  rcases h with rfl | rfl <;> simp [Live]

/- A live owner is in charge or retiring. -/
theorem Live.inCharge_or_retiring
    {role : Role}
    (h : role.Live) :
    role.InCharge ∨ role = .retiring := by
  cases role <;> simp_all [Live, InCharge]

end Role

variable {κ γ ι : Type*}

/- An owner: its key, its generation and its role. -/
structure Post (κ γ : Type*) where
  key : κ
  generation : γ
  role : Role

/- What the registry knows about a key. -/
inductive Shape (γ ι : Type*) where
| active (generation : γ) (owner : ι)
| retiring (generation : γ)

inductive Notice (κ γ ι : Type*) where
| asks (key : κ) (generation : γ) (owner : ι)
| leaves (key : κ) (generation : γ)

/- Two notices of which one must not follow the other. -/
def Notice.Clash : Notice κ γ ι → Notice κ γ ι → Prop
| .asks _ _ owner, .asks _ _ owner' => owner = owner'
| .leaves key _, .leaves key' _ => key = key'
| _, _ => False

structure Roster (κ γ ι : Type*) where
  post : ι → Option (Post κ γ)
  shape : κ → Option (Shape γ ι)
  notices : List (Notice κ γ ι)
  running : Prop

/-
  The protocol invariant.  Owners in charge are known to a
  running registry, retiring owners are known as retiring,
  and what the registry knows is borne out by an owner or by
  a notice on its way.
-/
structure Coherent (r : Roster κ γ ι) : Prop where
  unique :
    ∀ i j p q, r.post i = some p → r.post j = some q →
      p.role.Live → q.role.Live → p.key = q.key → i = j
  inCharge_shape :
    ∀ i p, r.post i = some p → p.role.InCharge →
      r.running →
        r.shape p.key = some (.active p.generation i)
  retiring_shape :
    ∀ i p, r.post i = some p → p.role = .retiring →
      r.shape p.key = some (.retiring p.generation)
  active_post :
    ∀ k g i, r.shape k = some (.active g i) →
      ∃ p, r.post i = some p ∧ p.key = k ∧
        p.generation = g ∧ p.role.InCharge
  retiring_post :
    ∀ k g, r.shape k = some (.retiring g) →
      (∃ i, r.post i = some ⟨k, g, .retiring⟩) ∨
        Notice.leaves k g ∈ r.notices
  leaves_shape :
    ∀ k g, Notice.leaves k g ∈ r.notices →
      r.shape k = some (.retiring g)
  leaves_stopped :
    ∀ k g i p, Notice.leaves k g ∈ r.notices →
      r.post i = some p → p.key = k → ¬ p.role.Live
  asks_post :
    ∀ k g i, Notice.asks k g i ∈ r.notices →
      r.post i = some ⟨k, g, .asking⟩
  once :
    r.notices.Pairwise (fun n n' => ¬ n.Clash n')

/- No owner, no entry, no notice. -/
theorem Coherent.start
    {r : Roster κ γ ι}
    (hPost : ∀ i, r.post i = none)
    (hShape : ∀ k, r.shape k = none)
    (hNotices : r.notices = []) :
    Coherent r := by
  constructor <;> simp [hPost, hShape, hNotices]

/- While the registry runs, an unknown key has no owner. -/
theorem Coherent.no_owner
    {r : Roster κ γ ι}
    (hCoherent : Coherent r)
    (hRunning : r.running)
    {k : κ}
    (hShape : r.shape k = none) :
    ∀ i p, r.post i = some p → p.key = k →
      ¬ p.role.Live := by
  intro i p hPost hKey hLive
  rcases hLive.inCharge_or_retiring with hCharge | hRetiring
  · have hKnown :=
      hCoherent.inCharge_shape i p hPost hCharge hRunning
    rw [hKey, hShape] at hKnown
    cases hKnown
  · have hKnown :=
      hCoherent.retiring_shape i p hPost hRetiring
    rw [hKey, hShape] at hKnown
    cases hKnown

end Handover

end Transition

------------------------------------------------------------
-- Posts Updated in Place
------------------------------------------------------------

namespace Transition

namespace Handover

variable {κ γ ι : Type*} [DecidableEq ι]

/- What is found is the new value or an old one. -/
theorem update_eq_some
    {α : Type*}
    {f : ι → Option α}
    {i a : ι}
    {new : Option α}
    {x : α} :
    Function.update f i new a = some x ↔
      (a = i ∧ new = some x) ∨ (a ≠ i ∧ f a = some x) := by
  by_cases hSame : a = i
  · subst hSame
    simp
  · simp [hSame]

/- Only the owner of a key may change its role. -/
theorem Coherent.unique_setRole
    {r : Roster κ γ ι}
    (hCoherent : Coherent r)
    {i : ι}
    {p : Post κ γ}
    (new : Post κ γ)
    (hPost : r.post i = some p)
    (hLive : p.role.Live)
    (hKey : new.key = p.key) :
    ∀ a b q q',
      Function.update r.post i (some new) a = some q →
        Function.update r.post i (some new) b = some q' →
          q.role.Live → q'.role.Live → q.key = q'.key →
            a = b := by
  intro a b q q' hq hq' hqLive hqLive' hSame
  rcases update_eq_some.mp hq with ⟨rfl, ⟨⟩⟩ | ⟨_, hOld⟩
  · rcases update_eq_some.mp hq' with ⟨rfl, _⟩ | ⟨_, hOld'⟩
    · rfl
    · exact hCoherent.unique a b p q' hPost hOld' hLive
        hqLive' (hKey.symm.trans hSame)
  · rcases update_eq_some.mp hq' with ⟨rfl, ⟨⟩⟩ | ⟨_, hOld'⟩
    · exact hCoherent.unique a b q p hOld hPost hqLive hLive
        (hSame.trans hKey)
    · exact hCoherent.unique a b q q' hOld hOld' hqLive
        hqLive' hSame

/- No announcement is out for the key of a live owner. -/
theorem Coherent.leaves_stopped_setRole
    {r : Roster κ γ ι}
    (hCoherent : Coherent r)
    {i : ι}
    {p : Post κ γ}
    (new : Post κ γ)
    (hPost : r.post i = some p)
    (hLive : p.role.Live)
    (hKey : new.key = p.key)
    {k : κ}
    {g : γ}
    (hNotice : Notice.leaves k g ∈ r.notices) :
    ∀ a q,
      Function.update r.post i (some new) a = some q →
        q.key = k → ¬ q.role.Live := by
  intro a q hq hSame
  rcases update_eq_some.mp hq with ⟨rfl, ⟨⟩⟩ | ⟨_, hOld⟩
  · exact (hCoherent.leaves_stopped k g a p hNotice hPost
      (hKey.symm.trans hSame) hLive).elim
  · exact hCoherent.leaves_stopped k g a q hNotice hOld hSame

end Handover

end Transition

------------------------------------------------------------
-- Moves
------------------------------------------------------------

namespace Transition

namespace Handover

variable {κ γ ι : Type*} [DecidableEq κ] [DecidableEq ι]

/-
  Appoint a new owner for a key nobody owns.  The notices
  left may have lost their head.
-/
theorem Coherent.appoint
    {r : Roster κ γ ι}
    (hCoherent : Coherent r)
    {k : κ}
    {g : γ}
    {i : ι}
    {rest : List (Notice κ γ ι)}
    (hFresh : r.post i = none)
    (hNone :
      ∀ j p, r.post j = some p → p.key = k →
        ¬ p.role.Live)
    (hRest : rest.Sublist r.notices)
    (hQuiet : ∀ g', Notice.leaves k g' ∉ rest)
    (hOther :
      ∀ k' g', k' ≠ k → Notice.leaves k' g' ∈ r.notices →
        Notice.leaves k' g' ∈ rest) :
    Coherent
      { r with
        post := Function.update r.post i
          (some ⟨k, g, .serving⟩)
        shape := Function.update r.shape k
          (some (.active g i))
        notices := rest } where
  unique := by
    intro a b p q hp hq hpLive hqLive hKey
    rcases update_eq_some.mp hp with ⟨rfl, ⟨⟩⟩ | ⟨_, hOld⟩
    · rcases update_eq_some.mp hq with ⟨rfl, _⟩ | ⟨_, hOld'⟩
      · rfl
      · exact (hNone b q hOld' hKey.symm hqLive).elim
    · rcases update_eq_some.mp hq with ⟨rfl, ⟨⟩⟩ | ⟨_, hOld'⟩
      · exact (hNone a p hOld hKey hpLive).elim
      · exact hCoherent.unique a b p q hOld hOld' hpLive
          hqLive hKey
  inCharge_shape := by
    intro a p hp hCharge hRunning
    rcases update_eq_some.mp hp with ⟨rfl, ⟨⟩⟩ | ⟨_, hOld⟩
    · exact Function.update_self _ _ _
    · have hKey : p.key ≠ k :=
        fun hSame => hNone a p hOld hSame hCharge.live
      exact update_eq_some.mpr (Or.inr ⟨hKey,
        hCoherent.inCharge_shape a p hOld hCharge hRunning⟩)
  retiring_shape := by
    intro a p hp hRole
    rcases update_eq_some.mp hp with ⟨rfl, ⟨⟩⟩ | ⟨_, hOld⟩
    · cases hRole
    · have hKey : p.key ≠ k :=
        fun hSame => hNone a p hOld hSame
          (by simp [hRole, Role.Live])
      exact update_eq_some.mpr (Or.inr ⟨hKey,
        hCoherent.retiring_shape a p hOld hRole⟩)
  active_post := by
    intro k' g' a hShape
    rcases update_eq_some.mp hShape with
      ⟨rfl, ⟨⟩⟩ | ⟨hKey, hShape⟩
    · exact ⟨_, Function.update_self _ _ _, rfl, rfl,
        Or.inl rfl⟩
    · rcases hCoherent.active_post k' g' a hShape with
        ⟨p, hp, hFound⟩
      have hNe : a ≠ i := by
        rintro rfl
        rw [hFresh] at hp
        cases hp
      exact ⟨p, update_eq_some.mpr (Or.inr ⟨hNe, hp⟩), hFound⟩
  retiring_post := by
    intro k' g' hShape
    -- the new entry of the key itself is of the other kind
    rcases update_eq_some.mp hShape with
      ⟨rfl, ⟨⟩⟩ | ⟨hKey, hShape⟩
    rcases hCoherent.retiring_post k' g' hShape with
      ⟨a, ha⟩ | hNotice
    · have hNe : a ≠ i := by
        rintro rfl
        rw [hFresh] at ha
        cases ha
      exact Or.inl
        ⟨a, update_eq_some.mpr (Or.inr ⟨hNe, ha⟩)⟩
    · exact Or.inr (hOther k' g' hKey hNotice)
  leaves_shape := by
    intro k' g' hNotice
    have hKey : k' ≠ k := by
      rintro rfl
      exact hQuiet g' hNotice
    exact update_eq_some.mpr (Or.inr ⟨hKey,
      hCoherent.leaves_shape k' g' (hRest.subset hNotice)⟩)
  leaves_stopped := by
    intro k' g' a p hNotice hp hSame
    rcases update_eq_some.mp hp with ⟨rfl, ⟨⟩⟩ | ⟨_, hOld⟩
    · subst hSame
      exact (hQuiet g' hNotice).elim
    · exact hCoherent.leaves_stopped k' g' a p
        (hRest.subset hNotice) hOld hSame
  asks_post := by
    intro k' g' a hNotice
    have hOld := hCoherent.asks_post k' g' a
      (hRest.subset hNotice)
    have hNe : a ≠ i := by
      rintro rfl
      rw [hFresh] at hOld
      cases hOld
    exact update_eq_some.mpr (Or.inr ⟨hNe,
      hOld⟩)
  once := hCoherent.once.sublist hRest

/- An owner in charge asks to leave. -/
omit [DecidableEq κ] in
theorem Coherent.ask
    {r : Roster κ γ ι}
    (hCoherent : Coherent r)
    {k : κ}
    {g : γ}
    {i : ι}
    (hPost : r.post i = some ⟨k, g, .serving⟩) :
    Coherent
      { r with
        post := Function.update r.post i
          (some ⟨k, g, .asking⟩)
        notices := r.notices ++ [.asks k g i] } where
  unique :=
    hCoherent.unique_setRole ⟨k, g, .asking⟩ hPost
      (by simp [Role.Live]) rfl
  inCharge_shape := by
    intro a p hp hCharge hRunning
    rcases update_eq_some.mp hp with ⟨rfl, ⟨⟩⟩ | ⟨_, hOld⟩
    · exact hCoherent.inCharge_shape a ⟨k, g, .serving⟩ hPost
        (Or.inl rfl) hRunning
    · exact hCoherent.inCharge_shape a p hOld hCharge hRunning
  retiring_shape := by
    intro a p hp hRole
    rcases update_eq_some.mp hp with ⟨rfl, ⟨⟩⟩ | ⟨_, hOld⟩
    · cases hRole
    · exact hCoherent.retiring_shape a p hOld hRole
  active_post := by
    intro k' g' a hShape
    rcases hCoherent.active_post k' g' a hShape with
      ⟨p, hp, hFound⟩
    by_cases hSame : a = i
    · subst hSame
      rw [hPost] at hp
      cases hp
      exact ⟨_, Function.update_self _ _ _, hFound.1,
        hFound.2.1, Or.inr rfl⟩
    · exact ⟨p, update_eq_some.mpr (Or.inr ⟨hSame, hp⟩),
        hFound⟩
  retiring_post := by
    intro k' g' hShape
    rcases hCoherent.retiring_post k' g' hShape with
      ⟨a, ha⟩ | hNotice
    · have hNe : a ≠ i := by
        rintro rfl
        rw [hPost] at ha
        cases ha
      exact Or.inl ⟨a, update_eq_some.mpr (Or.inr ⟨hNe, ha⟩)⟩
    · exact Or.inr (List.mem_append_left _ hNotice)
  leaves_shape := by
    intro k' g' hNotice
    exact hCoherent.leaves_shape k' g' (by simpa using hNotice)
  leaves_stopped := by
    intro k' g' a p hNotice
    exact hCoherent.leaves_stopped_setRole ⟨k, g, .asking⟩ hPost
      (by simp [Role.Live]) rfl (by simpa using hNotice) a p
  asks_post := by
    intro k' g' a hNotice
    rcases List.mem_append.mp hNotice with hOld | hNew
    · have hAsking := hCoherent.asks_post k' g' a hOld
      have hNe : a ≠ i := by
        rintro rfl
        rw [hPost] at hAsking
        cases hAsking
      exact update_eq_some.mpr (Or.inr ⟨hNe,
        hAsking⟩)
    · rw [List.mem_singleton] at hNew
      cases hNew
      exact Function.update_self _ _ _
  once := by
    rw [List.pairwise_append]
    refine ⟨hCoherent.once, List.pairwise_singleton _ _, ?_⟩
    intro n hn n' hn' hClash
    rw [List.mem_singleton] at hn'
    subst hn'
    cases n with
    | asks k' g' a =>
        have hOld := hCoherent.asks_post k' g' a hn
        have hSame : a = i := hClash
        rw [hSame, hPost] at hOld
        cases hOld
    | leaves k' g' => exact hClash

/- The registry agrees to the request at the head. -/
theorem Coherent.accept
    {r : Roster κ γ ι}
    (hCoherent : Coherent r)
    {k : κ}
    {g : γ}
    {i : ι}
    {rest : List (Notice κ γ ι)}
    (hNotices : r.notices = .asks k g i :: rest) :
    Coherent
      { r with
        post := Function.update r.post i
          (some ⟨k, g, .retiring⟩)
        shape := Function.update r.shape k
          (some (.retiring g))
        notices := rest } := by
  have hPost : r.post i = some ⟨k, g, .asking⟩ :=
    hCoherent.asks_post k g i (by simp [hNotices])
  have hLive : Role.asking.Live := by simp [Role.Live]
  have hOnce := hCoherent.once
  rw [hNotices, List.pairwise_cons] at hOnce
  have hSub : ∀ n ∈ rest, n ∈ r.notices := by
    intro n hn
    rw [hNotices]
    exact List.mem_cons_of_mem _ hn
  have hAlone :
      ∀ a p, a ≠ i → r.post a = some p → p.role.Live →
        p.key ≠ k := by
    intro a p hNe hp hpLive hKey
    exact hNe (hCoherent.unique a i p _ hp hPost hpLive hLive
      hKey)
  constructor
  case unique =>
    exact hCoherent.unique_setRole ⟨k, g, .retiring⟩ hPost
      hLive rfl
  case inCharge_shape =>
    intro a p hp hCharge hRunning
    rcases update_eq_some.mp hp with ⟨rfl, ⟨⟩⟩ | ⟨hNe, hOld⟩
    · rcases hCharge with hRole | hRole <;> cases hRole
    · have hKey := hAlone a p hNe hOld hCharge.live
      exact update_eq_some.mpr (Or.inr ⟨hKey,
        hCoherent.inCharge_shape a p hOld hCharge hRunning⟩)
  case retiring_shape =>
    intro a p hp hRole
    rcases update_eq_some.mp hp with ⟨rfl, ⟨⟩⟩ | ⟨hNe, hOld⟩
    · exact Function.update_self _ _ _
    · have hKey := hAlone a p hNe hOld
        (by simp [hRole, Role.Live])
      exact update_eq_some.mpr (Or.inr ⟨hKey,
        hCoherent.retiring_shape a p hOld hRole⟩)
  case active_post =>
    intro k' g' a hShape
    -- the new entry of the key itself is of the other kind
    rcases update_eq_some.mp hShape with
      ⟨rfl, ⟨⟩⟩ | ⟨hKey, hShape⟩
    rcases hCoherent.active_post k' g' a hShape with
      ⟨p, hp, hSame, hFound⟩
    have hNe : a ≠ i := by
      rintro rfl
      rw [hPost] at hp
      cases hp
      exact hKey hSame.symm
    exact ⟨p, update_eq_some.mpr (Or.inr ⟨hNe, hp⟩), hSame,
      hFound⟩
  case retiring_post =>
    intro k' g' hShape
    rcases update_eq_some.mp hShape with
      ⟨rfl, ⟨⟩⟩ | ⟨hKey, hShape⟩
    · exact Or.inl ⟨i, Function.update_self _ _ _⟩
    · rcases hCoherent.retiring_post k' g' hShape with
        ⟨a, ha⟩ | hNotice
      · have hNe : a ≠ i := by
          rintro rfl
          rw [hPost] at ha
          cases ha
        exact Or.inl
          ⟨a, update_eq_some.mpr (Or.inr ⟨hNe, ha⟩)⟩
      · rw [hNotices] at hNotice
        rcases List.mem_cons.mp hNotice with hHead | hTail
        · cases hHead
        · exact Or.inr hTail
  case leaves_shape =>
    intro k' g' hNotice
    have hKey : k' ≠ k := by
      rintro rfl
      exact hCoherent.leaves_stopped k' g' i _
        (hSub _ hNotice) hPost rfl hLive
    exact update_eq_some.mpr (Or.inr ⟨hKey,
      hCoherent.leaves_shape k' g' (hSub _ hNotice)⟩)
  case leaves_stopped =>
    intro k' g' a p hNotice
    exact hCoherent.leaves_stopped_setRole
      ⟨k, g, .retiring⟩ hPost hLive rfl (hSub _ hNotice) a p
  case asks_post =>
    intro k' g' a hNotice
    have hNe : a ≠ i := by
      rintro rfl
      exact hOnce.1 _ hNotice rfl
    exact update_eq_some.mpr (Or.inr ⟨hNe,
      hCoherent.asks_post k' g' a (hSub _ hNotice)⟩)
  case once => exact hOnce.2

/- A retiring owner stops and announces it. -/
omit [DecidableEq κ] in
theorem Coherent.leave
    {r : Roster κ γ ι}
    (hCoherent : Coherent r)
    {k : κ}
    {g : γ}
    {i : ι}
    (hPost : r.post i = some ⟨k, g, .retiring⟩) :
    Coherent
      { r with
        post := Function.update r.post i
          (some ⟨k, g, .stopped⟩)
        notices := r.notices ++ [.leaves k g] } := by
  have hLive : Role.retiring.Live := by simp [Role.Live]
  have hShape : r.shape k = some (.retiring g) :=
    hCoherent.retiring_shape i _ hPost rfl
  constructor
  case unique =>
    exact hCoherent.unique_setRole ⟨k, g, .stopped⟩ hPost
      hLive rfl
  case inCharge_shape =>
    intro a p hp hCharge hRunning
    rcases update_eq_some.mp hp with ⟨rfl, ⟨⟩⟩ | ⟨_, hOld⟩
    · rcases hCharge with hRole | hRole <;> cases hRole
    · exact hCoherent.inCharge_shape a p hOld hCharge hRunning
  case retiring_shape =>
    intro a p hp hRole
    rcases update_eq_some.mp hp with ⟨rfl, ⟨⟩⟩ | ⟨_, hOld⟩
    · cases hRole
    · exact hCoherent.retiring_shape a p hOld hRole
  case active_post =>
    intro k' g' a hActive
    rcases hCoherent.active_post k' g' a hActive with
      ⟨p, hp, hKey, hGeneration, hCharge⟩
    have hNe : a ≠ i := by
      rintro rfl
      rw [hPost] at hp
      cases hp
      rcases hCharge with hRole | hRole <;> cases hRole
    exact ⟨p, update_eq_some.mpr (Or.inr ⟨hNe, hp⟩), hKey,
      hGeneration, hCharge⟩
  case retiring_post =>
    intro k' g' hRetiring
    rcases hCoherent.retiring_post k' g' hRetiring with
      ⟨a, ha⟩ | hNotice
    · by_cases hSame : a = i
      · subst hSame
        rw [hPost] at ha
        cases ha
        exact Or.inr
          (List.mem_append_right _ (List.mem_singleton_self _))
      · exact Or.inl
          ⟨a, update_eq_some.mpr (Or.inr ⟨hSame, ha⟩)⟩
    · exact Or.inr (List.mem_append_left _ hNotice)
  case leaves_shape =>
    intro k' g' hNotice
    rcases List.mem_append.mp hNotice with hOld | hNew
    · exact hCoherent.leaves_shape k' g' hOld
    · rw [List.mem_singleton] at hNew
      cases hNew
      exact hShape
  case leaves_stopped =>
    intro k' g' a p hNotice hp hKey
    rcases List.mem_append.mp hNotice with hOld | hNew
    · exact hCoherent.leaves_stopped_setRole
        ⟨k, g, .stopped⟩ hPost hLive rfl hOld a p hp hKey
    · rw [List.mem_singleton] at hNew
      cases hNew
      rcases update_eq_some.mp hp with ⟨rfl, ⟨⟩⟩ | ⟨hNe, hOld⟩
      · exact fun hStopped => hStopped rfl
      · intro hpLive
        exact hNe (hCoherent.unique a i p _ hOld hPost hpLive
          hLive hKey)
  case asks_post =>
    intro k' g' a hNotice
    have hAsking := hCoherent.asks_post k' g' a
      (by simpa using hNotice)
    have hNe : a ≠ i := by
      rintro rfl
      rw [hPost] at hAsking
      cases hAsking
    exact update_eq_some.mpr (Or.inr ⟨hNe,
      hAsking⟩)
  case once =>
    rw [List.pairwise_append]
    refine ⟨hCoherent.once, List.pairwise_singleton _ _, ?_⟩
    intro n hn n' hn' hClash
    rw [List.mem_singleton] at hn'
    subst hn'
    cases n with
    | asks k' g' a => exact hClash
    | leaves k' g' =>
        have hSame : k' = k := hClash
        exact hCoherent.leaves_stopped k' g' i _ hn hPost
          hSame.symm hLive

/- The announcement at the head leaves the key vacant. -/
omit [DecidableEq ι] in
theorem Coherent.vacate
    {r : Roster κ γ ι}
    (hCoherent : Coherent r)
    {k : κ}
    {g : γ}
    {rest : List (Notice κ γ ι)}
    (hNotices : r.notices = .leaves k g :: rest) :
    Coherent
      { r with
        shape := Function.update r.shape k none
        notices := rest } := by
  have hHead : Notice.leaves k g ∈ r.notices := by
    simp [hNotices]
  have hStopped :
      ∀ i p, r.post i = some p → p.role.Live →
        p.key ≠ k := by
    intro i p hPost hLive hKey
    exact hCoherent.leaves_stopped k g i p hHead hPost hKey
      hLive
  have hOnce := hCoherent.once
  rw [hNotices, List.pairwise_cons] at hOnce
  have hSub : ∀ n ∈ rest, n ∈ r.notices := by
    intro n hn
    rw [hNotices]
    exact List.mem_cons_of_mem _ hn
  constructor
  case unique => exact hCoherent.unique
  case inCharge_shape =>
    intro a p hp hCharge hRunning
    have hKey := hStopped a p hp hCharge.live
    exact update_eq_some.mpr (Or.inr ⟨hKey,
      hCoherent.inCharge_shape a p hp hCharge hRunning⟩)
  case retiring_shape =>
    intro a p hp hRole
    have hKey := hStopped a p hp (by simp [hRole, Role.Live])
    exact update_eq_some.mpr (Or.inr ⟨hKey,
      hCoherent.retiring_shape a p hp hRole⟩)
  case active_post =>
    intro k' g' a hActive
    -- the key itself has no entry any more
    rcases update_eq_some.mp hActive with
      ⟨rfl, ⟨⟩⟩ | ⟨hKey, hActive⟩
    exact hCoherent.active_post k' g' a hActive
  case retiring_post =>
    intro k' g' hRetiring
    -- the key itself has no entry any more
    rcases update_eq_some.mp hRetiring with
      ⟨rfl, ⟨⟩⟩ | ⟨hKey, hRetiring⟩
    rcases hCoherent.retiring_post k' g' hRetiring with
      hPost | hNotice
    · exact Or.inl hPost
    · rw [hNotices] at hNotice
      rcases List.mem_cons.mp hNotice with hSame | hTail
      · cases hSame
        exact (hKey rfl).elim
      · exact Or.inr hTail
  case leaves_shape =>
    intro k' g' hNotice
    have hKey : k' ≠ k := by
      rintro rfl
      exact hOnce.1 _ hNotice rfl
    exact update_eq_some.mpr (Or.inr ⟨hKey,
      hCoherent.leaves_shape k' g' (hSub _ hNotice)⟩)
  case leaves_stopped =>
    intro k' g' a p hNotice
    exact hCoherent.leaves_stopped k' g' a p (hSub _ hNotice)
  case asks_post =>
    intro k' g' a hNotice
    exact hCoherent.asks_post k' g' a (hSub _ hNotice)
  case once => exact hOnce.2

/- With no registry left, an owner in charge may just stop. -/
omit [DecidableEq κ] in
theorem Coherent.quit
    {r : Roster κ γ ι}
    (hCoherent : Coherent r)
    {i : ι}
    {p : Post κ γ}
    (hPost : r.post i = some p)
    (hServing : p.role = .serving)
    (hShape : ∀ k g, r.shape k ≠ some (.active g i)) :
    Coherent
      { r with
        post := Function.update r.post i
          (some { p with role := .stopped }) } := by
  have hLive : p.role.Live := by simp [hServing, Role.Live]
  have hStopped : ¬ r.running := by
    intro hRunning
    exact hShape _ _ (hCoherent.inCharge_shape i p hPost
      (Or.inl hServing) hRunning)
  constructor
  case unique =>
    exact hCoherent.unique_setRole
      { p with role := .stopped } hPost hLive rfl
  case inCharge_shape =>
    intro a q hq hCharge hRunning
    exact absurd hRunning hStopped
  case retiring_shape =>
    intro a q hq hRole
    rcases update_eq_some.mp hq with ⟨rfl, ⟨⟩⟩ | ⟨_, hOld⟩
    · cases hRole
    · exact hCoherent.retiring_shape a q hOld hRole
  case active_post =>
    intro k g a hActive
    rcases hCoherent.active_post k g a hActive with
      ⟨q, hq, hFound⟩
    have hNe : a ≠ i := by
      rintro rfl
      exact hShape k g hActive
    exact ⟨q, update_eq_some.mpr (Or.inr ⟨hNe, hq⟩), hFound⟩
  case retiring_post =>
    intro k g hRetiring
    rcases hCoherent.retiring_post k g hRetiring with
      ⟨a, ha⟩ | hNotice
    · have hNe : a ≠ i := by
        rintro rfl
        rw [hPost] at ha
        cases ha
        cases hServing
      exact Or.inl ⟨a, update_eq_some.mpr (Or.inr ⟨hNe, ha⟩)⟩
    · exact Or.inr hNotice
  case leaves_shape => exact hCoherent.leaves_shape
  case leaves_stopped =>
    intro k g a q hNotice
    exact hCoherent.leaves_stopped_setRole
      { p with role := .stopped } hPost hLive rfl hNotice a q
  case asks_post =>
    intro k g a hNotice
    have hAsking := hCoherent.asks_post k g a hNotice
    have hNe : a ≠ i := by
      rintro rfl
      rw [hPost] at hAsking
      cases hAsking
      cases hServing
    exact update_eq_some.mpr (Or.inr ⟨hNe,
      hAsking⟩)
  case once => exact hCoherent.once

/- The registry ends when nobody can reach it any more. -/
omit [DecidableEq κ] [DecidableEq ι] in
theorem Coherent.shutdown
    {r : Roster κ γ ι}
    (hCoherent : Coherent r)
    (hQuiet : r.notices = [])
    (hRoles :
      ∀ i p, r.post i = some p → p.role ≠ .retiring) :
    Coherent
      { r with
        shape := fun _ => none
        running := False } where
  unique := hCoherent.unique
  inCharge_shape := by simp
  retiring_shape := by
    intro i p hp hRole
    exact absurd hRole (hRoles i p hp)
  active_post := by simp
  retiring_post := by simp
  leaves_shape := by simp [hQuiet]
  leaves_stopped := by simp [hQuiet]
  asks_post := by simp [hQuiet]
  once := hCoherent.once

end Handover

end Transition
