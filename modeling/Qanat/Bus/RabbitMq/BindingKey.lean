import Mathlib.Data.List.Infix
import Qanat.Bus.Patterns
import Qanat.Bus.RabbitMq.Model

/-
  Binding keys that match what their patterns match.

  Main declarations:
    * `rabbitBindingKey_spec`
    * `topicMatch_eq_wildcardMatch`
    * `topicMatch_eq_wildcardMatch_iff`
-/

------------------------------------------------------------
-- Binding Keys
------------------------------------------------------------

namespace Qanat

namespace Bus

theorem tokens_joinTokens
    {parts : List Token}
    (hNonempty : parts ≠ [])
    (hParts : ∀ part ∈ parts, '.' ∉ part) :
    tokens (joinTokens parts) = parts := by
  unfold tokens joinTokens
  rw [String.toList_ofList]
  exact List.splitOn_intercalate '.' hParts hNonempty

theorem keyWords_joinTokens
    {parts : List Token}
    (hTwo : 2 ≤ parts.length)
    (hParts : ∀ part ∈ parts, '.' ∉ part) :
    keyWords (joinTokens parts) = parts := by
  have hNonempty : parts ≠ [] := by
    rintro rfl
    cases hTwo
  have hTokens := tokens_joinTokens hNonempty hParts
  unfold keyWords
  by_cases hEmpty : joinTokens parts = ""
  · rw [tokens_eq_singleton_nil_iff.mpr hEmpty] at hTokens
    rw [← hTokens] at hTwo
    simp at hTwo
  · rw [if_neg hEmpty, hTokens]

/- The position that the check of `>` looks for. -/
theorem findIdx?_eq_last
    {parts : List Token}
    (hFind :
      parts.findIdx? (fun part => part = ['>']) =
        some (parts.length - 1)) :
    parts = parts.dropLast ++ [['>']] ∧
      ['>'] ∉ parts.dropLast := by
  rw [List.findIdx?_eq_some_iff_getElem] at hFind
  rcases hFind with ⟨hBound, hLast, hBefore⟩
  have hNonempty : parts ≠ [] := by
    rintro rfl
    cases hBound
  refine ⟨?_, ?_⟩
  · have hTail : parts.getLast hNonempty = ['>'] := by
      rw [List.getLast_eq_getElem]
      simpa using hLast
    rw [← hTail]
    exact (List.dropLast_append_getLast hNonempty).symm
  · intro hMem
    rcases List.mem_iff_getElem.mp hMem with
      ⟨i, hIndex, hSame⟩
    rw [List.getElem_dropLast] at hSame
    rw [List.length_dropLast] at hIndex
    exact hBefore i hIndex (decide_eq_true hSame)

/- What is accepted, and the words of its key. -/
theorem rabbitBindingKey_spec
    {pattern key : String}
    (hKey : rabbitBindingKey pattern = .ok key) :
    [] ∉ tokens pattern ∧
      ((['>'] ∉ tokens pattern ∧
          keyWords key = tokens pattern) ∨
        ∃ front, tokens pattern = front ++ [['>']] ∧
          ['>'] ∉ front ∧
          keyWords key =
            if front = [] then
              [['#']]
            else
              front ++ [['*'], ['#']]) := by
  unfold rabbitBindingKey at hKey
  by_cases hEmpty : pattern = ""
  · simp [hEmpty] at hKey
  by_cases hBlank : [] ∈ tokens pattern
  · simp [hEmpty, hBlank] at hKey
  refine ⟨hBlank, ?_⟩
  simp only [if_neg hEmpty, if_neg hBlank] at hKey
  cases hFind :
      (tokens pattern).findIdx? (fun part => part = ['>']) with
  | none =>
      rw [hFind] at hKey
      cases hKey
      refine Or.inl ⟨?_, ?_⟩
      · intro hMem
        rw [List.findIdx?_eq_none_iff] at hFind
        simpa using hFind _ hMem
      · unfold keyWords
        rw [if_neg hEmpty]
  | some index =>
      rw [hFind] at hKey
      by_cases hLast : index = (tokens pattern).length - 1
      · subst hLast
        rcases findIdx?_eq_last hFind with ⟨hTokens, hFront⟩
        refine Or.inr ⟨_, hTokens, hFront, ?_⟩
        by_cases hOne : (tokens pattern).length = 1
        · have hNil : (tokens pattern).dropLast = [] := by
            rw [← List.length_eq_zero_iff, List.length_dropLast,
              hOne]
          simp only [ne_eq, not_true_eq_false, if_false,
            if_pos hOne] at hKey
          cases hKey
          rw [if_pos hNil]
          rfl
        · have hSome : (tokens pattern).dropLast ≠ [] := by
            intro hNil
            rw [hNil] at hTokens
            exact hOne (congrArg List.length hTokens)
          simp only [ne_eq, not_true_eq_false, if_false,
            if_neg hOne] at hKey
          cases hKey
          rw [if_neg hSome]
          apply keyWords_joinTokens
          · simp
          · intro part hMem
            rcases List.mem_append.mp hMem with hOld | hNew
            · exact Lists.not_mem_of_mem_splitOn
                (List.dropLast_subset _ hOld)
            · have hCases : part = ['*'] ∨ part = ['#'] := by
                simpa using hNew
              rcases hCases with rfl | rfl <;> simp
      · simp [hLast] at hKey

/- Words without `#` and `>` are matched one by one. -/
theorem matchWords_eq_matchTokens
    {parts : List Token}
    (hHash : ['#'] ∉ parts)
    (hTail : ['>'] ∉ parts)
    (words : List Token) :
    matchWords parts words = matchTokens parts words := by
  induction parts generalizing words with
  | nil => rfl
  | cons part rest ih =>
      rw [List.mem_cons, not_or] at hHash hTail
      unfold matchWords matchTokens
      rw [if_neg (Ne.symm hHash.1), if_neg (Ne.symm hTail.1)]
      cases words with
      | nil => rfl
      | cons word words =>
          simp only [ih hHash.2 hTail.2 words]

/- A final `#` takes all the words that are left. -/
theorem matchWords_hash (words : List Token) :
    matchWords [['#']] words = true := by
  unfold matchWords
  rw [if_pos rfl, List.any_eq_true]
  exact ⟨[], by simp, rfl⟩

theorem matchWords_star_hash
    {front : List Token}
    (hHash : ['#'] ∉ front)
    (hTail : ['>'] ∉ front)
    (words : List Token) :
    matchWords (front ++ [['*'], ['#']]) words =
      matchTokens (front ++ [['>']]) words := by
  induction front generalizing words with
  | nil =>
      cases words with
      | nil => rfl
      | cons word words =>
          change matchWords [['#']] words = true
          exact matchWords_hash words
  | cons part rest ih =>
      rw [List.mem_cons, not_or] at hHash hTail
      rw [List.cons_append, List.cons_append]
      unfold matchWords matchTokens
      rw [if_neg (Ne.symm hHash.1), if_neg (Ne.symm hTail.1)]
      cases words with
      | nil => rfl
      | cons word words =>
          simp only [ih hHash.2 hTail.2 words]

/- The key matches what the pattern matches. -/
theorem topicMatch_eq_wildcardMatch
    {pattern key subject : String}
    (hKey : rabbitBindingKey pattern = .ok key)
    (hHash : ['#'] ∉ tokens pattern)
    (hSubject : subject ≠ "") :
    topicMatch key subject = wildcardMatch pattern subject := by
  have hWords : keyWords subject = tokens subject :=
    if_neg hSubject
  rw [wildcardMatch_eq_matchTokens]
  unfold topicMatch
  rw [hWords]
  rcases rabbitBindingKey_spec hKey with
    ⟨_, ⟨hTail, hSame⟩ | ⟨front, hTokens, hTail, hSame⟩⟩
  · rw [hSame]
    exact matchWords_eq_matchTokens hHash hTail _
  · rw [hSame, hTokens]
    rw [hTokens, List.mem_append, not_or] at hHash
    by_cases hNil : front = []
    · subst hNil
      rw [if_pos rfl, matchWords_hash]
      cases hParts : tokens subject with
      | nil => exact (tokens_ne_nil subject hParts).elim
      | cons token rest => rfl
    · rw [if_neg hNil]
      exact matchWords_star_hash hHash.1 hTail _

/- No word but `#` is matched by nothing. -/
theorem matchWords_nil
    {parts : List Token}
    (hFirst : parts.head? ≠ some ['#'])
    (hMatch : matchWords parts [] = true) :
    parts = [] := by
  cases parts with
  | nil => rfl
  | cons part rest =>
      have hPart : part ≠ ['#'] := by
        rintro rfl
        exact hFirst rfl
      unfold matchWords at hMatch
      rw [if_neg hPart] at hMatch
      cases hMatch

/- The empty subject has no words but one token. -/
theorem wildcardMatch_of_topicMatch_empty
    {pattern key : String}
    (hKey : rabbitBindingKey pattern = .ok key)
    (hHash : ['#'] ∉ tokens pattern)
    (hMatch : topicMatch key "" = true) :
    wildcardMatch pattern "" = true := by
  have hWords : matchWords (keyWords key) [] = true := hMatch
  rw [wildcardMatch_eq_matchTokens]
  rcases rabbitBindingKey_spec hKey with
    ⟨_, ⟨_, hSame⟩ | ⟨front, hTokens, _, hSame⟩⟩
  · rw [hSame] at hWords
    have hFirst : (tokens pattern).head? ≠ some ['#'] := by
      intro hHead
      exact hHash (List.mem_of_mem_head? hHead)
    have hNil := matchWords_nil hFirst hWords
    exact (tokens_ne_nil pattern hNil).elim
  · rw [hTokens]
    rw [hTokens, List.mem_append, not_or] at hHash
    cases front with
    | nil => rfl
    | cons part rest =>
        rw [hSame, if_neg (List.cons_ne_nil _ _)] at hWords
        have hFirst :
            (part :: rest ++ [['*'], ['#']]).head? ≠
              some ['#'] := by
          intro hHead
          cases hHead
          exact hHash.1 List.mem_cons_self
        have hNil := matchWords_nil hFirst hWords
        simp at hNil

/- What the key of a plain pattern matches, it matches. -/
theorem wildcardMatch_of_topicMatch
    {pattern key subject : String}
    (hKey : rabbitBindingKey pattern = .ok key)
    (hHash : ['#'] ∉ tokens pattern)
    (hMatch : topicMatch key subject = true) :
    wildcardMatch pattern subject = true := by
  by_cases hSubject : subject = ""
  · subst hSubject
    exact wildcardMatch_of_topicMatch_empty hKey hHash hMatch
  · rw [← topicMatch_eq_wildcardMatch hKey hHash hSubject]
    exact hMatch

end Bus

end Qanat

------------------------------------------------------------
-- Patterns with a Hash
------------------------------------------------------------

namespace Qanat

namespace Bus

/- A word that a wildcard of either language matches. -/
def instantiate (part : Token) : Token :=
  if part = ['*'] ∨ part = ['#'] ∨ part = ['>'] then ['x']
  else part

theorem dot_not_mem_instantiate
    {part : Token} (hPart : '.' ∉ part) :
    '.' ∉ instantiate part := by
  unfold instantiate
  split
  · decide
  · exact hPart

theorem instantiate_ne_nil
    {part : Token} (hPart : part ≠ []) :
    instantiate part ≠ [] := by
  unfold instantiate
  split
  · decide
  · exact hPart

/- The key matches the subject that instantiates it. -/
theorem matchWords_instantiate
    {front back words : List Token}
    (hTail : ['>'] ∉ front)
    (hBack : matchWords back words = true) :
    matchWords (front ++ back)
        (front.map instantiate ++ words) =
      true := by
  induction front with
  | nil => exact hBack
  | cons part rest ih =>
      rw [List.mem_cons, not_or] at hTail
      have hRest := ih hTail.2
      rw [List.cons_append, List.map_cons, List.cons_append]
      unfold matchWords
      by_cases hHash : part = ['#']
      · rw [if_pos hHash, List.any_eq_true]
        refine ⟨rest.map instantiate ++ words, ?_, hRest⟩
        rw [List.mem_tails]
        exact List.suffix_cons _ _
      · have hPart :
            (part == ['*'] || part == instantiate part) =
              true := by
          by_cases hStar : part = ['*']
          · simp [hStar]
          · simp [instantiate, hStar, hHash,
              Ne.symm hTail.1]
        rw [if_neg hHash]
        simp only [hPart, hRest, Bool.and_self]

/- The pattern with a hash does not match that subject. -/
theorem matchTokens_instantiate
    {front back words : List Token}
    (hTail : ['>'] ∉ front) (hHash : ['#'] ∈ front) :
    matchTokens (front ++ back)
        (front.map instantiate ++ words) =
      false := by
  induction front with
  | nil => cases hHash
  | cons part rest ih =>
      rw [List.mem_cons, not_or] at hTail
      rw [List.cons_append, List.map_cons, List.cons_append]
      unfold matchTokens
      rw [if_neg (Ne.symm hTail.1)]
      dsimp only
      by_cases hFirst : part = ['#']
      · have hPart :
            (part == ['*'] || part == instantiate part) =
              false := by
          subst hFirst
          decide
        rw [hPart, Bool.false_and]
      · have hRest : ['#'] ∈ rest := by
          rcases List.mem_cons.mp hHash with hSame | hMem
          · exact absurd hSame.symm hFirst
          · exact hMem
        rw [ih hTail.2 hRest, Bool.and_false]

/- The subject of the instantiated tokens. -/
theorem tokens_instantiate
    {pattern : String} (hFilled : [] ∉ tokens pattern) :
    tokens
          (joinTokens ((tokens pattern).map instantiate)) =
        (tokens pattern).map instantiate ∧
      [] ∉ (tokens pattern).map instantiate := by
  constructor
  · apply tokens_joinTokens
    · intro hNil
      exact tokens_ne_nil pattern
        (List.map_eq_nil_iff.mp hNil)
    · intro part hMem
      rcases List.mem_map.mp hMem with ⟨other, hOther, rfl⟩
      exact dot_not_mem_instantiate
        (Lists.not_mem_of_mem_splitOn hOther)
  · intro hMem
    rcases List.mem_map.mp hMem with ⟨other, hOther, hNil⟩
    refine instantiate_ne_nil ?_ hNil
    rintro rfl
    exact hFilled hOther

theorem ne_empty_of_filled
    {subject : String} (hFilled : [] ∉ tokens subject) :
    subject ≠ "" := by
  rintro rfl
  exact hFilled List.mem_cons_self

/-
  A pattern with a hash: its key matches a subject that the
  pattern does not match.
-/
theorem exists_topicMatch_of_hash
    {pattern key : String}
    (hKey : rabbitBindingKey pattern = .ok key)
    (hHash : ['#'] ∈ tokens pattern) :
    ∃ subject, [] ∉ tokens subject ∧
      topicMatch key subject = true ∧
      wildcardMatch pattern subject = false := by
  rcases rabbitBindingKey_spec hKey with ⟨hFilled, hCases⟩
  rcases tokens_instantiate hFilled with
    ⟨hSubject, hNonempty⟩
  rw [← hSubject] at hNonempty
  refine ⟨_, hNonempty, ?_⟩
  have hWords :
      keyWords
          (joinTokens ((tokens pattern).map instantiate)) =
        (tokens pattern).map instantiate := by
    unfold keyWords
    rw [if_neg (ne_empty_of_filled hNonempty), hSubject]
  rw [wildcardMatch_eq_matchTokens]
  unfold topicMatch
  rw [hWords, hSubject]
  rcases hCases with
    ⟨hTail, hSame⟩ | ⟨front, hTokens, hTail, hSame⟩
  · have hTopic := @matchWords_instantiate (tokens pattern)
      [] [] hTail rfl
    have hWildcard := @matchTokens_instantiate
      (tokens pattern) [] [] hTail hHash
    rw [List.append_nil, List.append_nil] at hTopic hWildcard
    rw [hSame]
    exact ⟨hTopic, hWildcard⟩
  · have hFront : ['#'] ∈ front := by
      rw [hTokens, List.mem_append] at hHash
      rcases hHash with hMem | hMem
      · exact hMem
      · exact absurd hMem (by decide)
    have hSome : front ≠ [] := List.ne_nil_of_mem hFront
    rw [hSame, if_neg hSome, hTokens, List.map_append]
    exact ⟨matchWords_instantiate hTail (by decide),
      matchTokens_instantiate hTail hFront⟩

/-
  On the subjects without empty tokens, the binding key of a
  pattern matches what the pattern matches, unless a token
  of the pattern is the other wildcard of the topic rules.
-/
theorem topicMatch_eq_wildcardMatch_iff
    (pattern key : String)
    (hKey : rabbitBindingKey pattern = .ok key) :
    (∀ subject, [] ∉ tokens subject →
      topicMatch key subject =
        wildcardMatch pattern subject) ↔
      ['#'] ∉ tokens pattern := by
  constructor
  · intro hAgree hHash
    rcases exists_topicMatch_of_hash hKey hHash with
      ⟨subject, hFilled, hTopic, hWildcard⟩
    rw [hAgree subject hFilled, hWildcard] at hTopic
    cases hTopic
  · intro hHash subject hFilled
    exact topicMatch_eq_wildcardMatch hKey hHash
      (ne_empty_of_filled hFilled)

theorem topicMatch_eq_wildcardMatch_iff_orders :
    rabbitBindingKey "orders.>" = .ok "orders.*.#" ∧
      ∀ subject, [] ∉ tokens subject →
        topicMatch "orders.*.#" subject =
          wildcardMatch "orders.>" subject := by
  have hKey : rabbitBindingKey "orders.>" = .ok "orders.*.#" :=
    rfl
  exact ⟨hKey, (topicMatch_eq_wildcardMatch_iff _ _ hKey).mpr
    (by decide)⟩

/- A hash is an ordinary token of the router. -/
theorem hash_is_a_wildcard :
    rabbitBindingKey "logs.#" = .ok "logs.#" ∧
      [] ∉ tokens "logs.a.b" ∧
      topicMatch "logs.#" "logs.a.b" = true ∧
      wildcardMatch "logs.#" "logs.a.b" = false := by
  refine ⟨rfl, by decide, by decide, by decide⟩

end Bus

end Qanat
