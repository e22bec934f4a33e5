import Qanat.Bus.Routing
import Qanat.Library.Lists

/-
  Patterns as lists of tokens.

  Main declarations:
    * `matchTokens`, `wildcardMatch_eq_matchTokens`
    * `Consumes`, `TailLast`
    * `matchTokens_iff_consumes`
    * `wildcardMatch_documented_iff`
-/

------------------------------------------------------------
-- Tokens
------------------------------------------------------------

namespace Qanat

namespace Bus

theorem tokens_ne_nil (text : String) : tokens text ≠ [] :=
  List.splitOn_ne_nil _ _

theorem tokens_eq_singleton_nil_iff {text : String} :
    tokens text = [[]] ↔ text = "" := by
  constructor
  · intro hTokens
    have hJoin :
        List.intercalate ['.'] (text.toList.splitOn '.') =
          text.toList :=
      List.intercalate_splitOn '.'
    unfold tokens at hTokens
    rw [hTokens] at hJoin
    exact String.toList_eq_nil_iff.mp hJoin.symm
  · rintro rfl
    rfl

end Bus

end Qanat

------------------------------------------------------------
-- Wildcards
------------------------------------------------------------

namespace Qanat

namespace Bus

/-
  Patterns by recursion on their tokens: `>` is one or more
  tokens and ends the pattern, `*` is one token and any other
  token is itself.
-/
def matchTokens : List Token → List Token → Bool
| [], subject => subject.isEmpty
| part :: rest, subject =>
    if part = ['>'] then
      !subject.isEmpty
    else
      match subject with
      | [] => false
      | token :: subject =>
          (part == ['*'] || part == token) &&
            matchTokens rest subject

/-
  The loop from position `front.length` on, by induction on
  the tokens of the pattern that are left.
-/
theorem wildcardLoop_eq
    (parts front back : List Token) :
    (wildcardLoop (front ++ back) front.length parts).getD
        (front.length + parts.length ==
          (front ++ back).length) =
      matchTokens parts back := by
  induction parts generalizing front back with
  | nil => cases back <;> simp [wildcardLoop, matchTokens]
  | cons part rest ih =>
      unfold wildcardLoop matchTokens
      by_cases hTail : part = ['>']
      · cases back <;> simp [hTail]
      · rw [if_neg hTail, if_neg hTail]
        cases back with
        | nil => by_cases hStar : part = ['*'] <;> simp [hStar]
        | cons token back =>
            have hNext := ih (front ++ [token]) back
            have hLength :
                front.length + 1 + rest.length =
                  front.length + (rest.length + 1) := by
              omega
            have hInside :
                ¬ front.length + (back.length + 1) ≤
                  front.length := by
              omega
            simp only [List.append_assoc,
              List.singleton_append, List.length_append,
              List.length_singleton, hLength] at hNext
            by_cases hStar : part = ['*']
            · simpa [hStar, hInside] using hNext
            · by_cases hSame : part = token
              · subst hSame
                simpa [hStar] using hNext
              · simp [hStar, hSame, Ne.symm hSame]

theorem wildcardMatch_eq_matchTokens
    (pattern subject : String) :
    wildcardMatch pattern subject =
      matchTokens (tokens pattern) (tokens subject) := by
  have hLoop :=
    wildcardLoop_eq (tokens pattern) [] (tokens subject)
  rw [← hLoop]
  unfold wildcardMatch
  simp only [List.nil_append, List.length_nil, Nat.zero_add]
  cases wildcardLoop (tokens subject) 0 (tokens pattern) <;> rfl

end Bus

end Qanat

------------------------------------------------------------
-- The Pattern Language
------------------------------------------------------------

namespace Qanat

namespace Bus

/- The tokens of a subject, consumed in order. -/
inductive Consumes : List Token → List Token → Prop where
| done : Consumes [] []
| literal {part : Token} {rest subject : List Token} :
    part ≠ ['>'] → part ≠ ['*'] → Consumes rest subject →
      Consumes (part :: rest) (part :: subject)
| one {token : Token} {rest subject : List Token} :
    Consumes rest subject →
      Consumes (['*'] :: rest) (token :: subject)
| tail {token : Token} {subject : List Token} :
    Consumes [['>']] (token :: subject)

/- The token `>` is the last one, if it is there. -/
def TailLast (parts : List Token) : Prop :=
  ∀ part ∈ parts.dropLast, part ≠ ['>']

theorem TailLast.of_cons
    {part : Token} {rest : List Token}
    (hTail : TailLast (part :: rest)) :
    TailLast rest := by
  cases rest with
  | nil => nofun
  | cons next rest =>
      intro other hMem
      apply hTail other
      rw [List.dropLast_cons_cons]
      exact List.mem_cons_of_mem _ hMem

theorem TailLast.eq_nil
    {rest : List Token}
    (hTail : TailLast (['>'] :: rest)) :
    rest = [] := by
  cases rest with
  | nil => rfl
  | cons next rest =>
      rw [TailLast, List.dropLast_cons_cons] at hTail
      exact (hTail _ List.mem_cons_self rfl).elim

/- Nothing follows `>`, so that it may end the loop. -/
theorem matchTokens_iff_consumes
    {parts : List Token} (hTail : TailLast parts)
    (subject : List Token) :
    matchTokens parts subject = true ↔
      Consumes parts subject := by
  induction parts generalizing subject with
  | nil =>
      cases subject with
      | nil => exact iff_of_true rfl Consumes.done
      | cons token subject =>
          exact iff_of_false (by simp [matchTokens]) nofun
  | cons part rest ih =>
      unfold matchTokens
      by_cases hGreater : part = ['>']
      · subst hGreater
        rw [if_pos rfl, hTail.eq_nil]
        cases subject with
        | nil => exact iff_of_false (by simp) nofun
        | cons token subject =>
            exact iff_of_true (by simp) Consumes.tail
      · rw [if_neg hGreater]
        cases subject with
        | nil => exact iff_of_false (by simp) nofun
        | cons token subject =>
            dsimp only
            rw [Bool.and_eq_true, ih hTail.of_cons,
              Bool.or_eq_true, beq_iff_eq, beq_iff_eq]
            constructor
            · rintro ⟨rfl | rfl, hRest⟩
              · exact Consumes.one hRest
              · by_cases hStar : part = ['*']
                · rw [hStar]
                  exact Consumes.one hRest
                · exact Consumes.literal hGreater hStar hRest
            · intro hConsumes
              cases hConsumes with
              | literal _ _ hRest =>
                  exact ⟨Or.inr rfl, hRest⟩
              | one hRest => exact ⟨Or.inl rfl, hRest⟩
              | tail => exact (hGreater rfl).elim

end Bus

end Qanat

------------------------------------------------------------
-- Empty Subjects
------------------------------------------------------------

namespace Qanat

namespace Bus

theorem tokens_injective
    {text other : String}
    (hTokens : tokens text = tokens other) :
    text = other := by
  have hJoin :
      List.intercalate ['.'] (tokens text) = text.toList :=
    List.intercalate_splitOn '.'
  have hOther :
      List.intercalate ['.'] (tokens other) = other.toList :=
    List.intercalate_splitOn '.'
  rw [hTokens, hOther] at hJoin
  exact String.toList_inj.mp hJoin.symm

/- The empty subject has one empty token. -/
theorem consumes_empty_iff
    {pattern : String} :
    Consumes (tokens pattern) (tokens "") ↔
      pattern ∈ [">", "*", ""] := by
  have hEmpty : tokens "" = [[]] := rfl
  rw [hEmpty]
  constructor
  · intro hConsumes
    generalize hParts : tokens pattern = parts at hConsumes
    cases hConsumes with
    | literal _ _ hRest =>
        cases hRest
        rw [tokens_eq_singleton_nil_iff] at hParts
        simp [hParts]
    | one hRest =>
        cases hRest
        simp [tokens_injective
          (hParts.trans (rfl : _ = tokens "*"))]
    | tail =>
        simp [tokens_injective
          (hParts.trans (rfl : _ = tokens ">"))]
  · intro hMem
    simp only [List.mem_cons, List.not_mem_nil,
      or_false] at hMem
    rcases hMem with rfl | rfl | rfl
    · exact Consumes.tail
    · exact Consumes.one Consumes.done
    · exact Consumes.literal (by decide) (by decide)
        Consumes.done

/-
  The documented language, up to the empty subject, which is
  not told apart from a subject of one token.
-/
theorem wildcardMatch_documented_iff
    {pattern : String}
    (hTail : TailLast (tokens pattern))
    (subject : String) :
    ((wildcardMatch pattern subject = true ↔
        subject ≠ "" ∧
          Consumes (tokens pattern) (tokens subject)) ↔
      (subject ≠ "" ∨ pattern ∉ [">", "*", ""])) ∧
    ((wildcardMatch ">" subject = true ↔ subject ≠ "") ↔
      subject ≠ "") := by
  have hAll : wildcardMatch ">" subject = true := by
    rw [wildcardMatch_eq_matchTokens]
    cases hTokens : tokens subject with
    | nil => exact (tokens_ne_nil subject hTokens).elim
    | cons token rest => rfl
  rw [wildcardMatch_eq_matchTokens,
    matchTokens_iff_consumes hTail]
  refine ⟨?_, iff_true_left hAll⟩
  by_cases hSubject : subject = ""
  · subst hSubject
    rw [consumes_empty_iff]
    simp
  · simp [hSubject]

/- The documented reading of `>` excludes the empty subject. -/
theorem tail_matches_empty_subject :
    TailLast (tokens ">") ∧
      ¬ (wildcardMatch ">" "" = true ↔
        "" ≠ "" ∧ Consumes (tokens ">") (tokens "")) := by
  refine ⟨nofun, ?_⟩
  intro hDocumented
  exact (hDocumented.mp (by decide)).1 rfl

theorem wildcardMatch_documented_iff_orders :
    wildcardMatch "orders.>" "orders.created" = true ↔
      "orders.created" ≠ "" ∧
        Consumes (tokens "orders.>")
          (tokens "orders.created") := by
  have hTail : TailLast (tokens "orders.>") := by
    unfold TailLast
    decide
  exact ((wildcardMatch_documented_iff hTail
    "orders.created").1).mpr (Or.inl (by decide))

end Bus

end Qanat
