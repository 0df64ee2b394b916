import WallyIo.Library.LevelPattern
import WallyIo.Protocol.Packet

/-!
# The levels of topics and topic filters

A topic consists of levels with a slash between each two.  The wildcards of a topic
filter are levels of their own, and the multi-level wildcard is the last one.  The
constructor of a subscription looks at pairs of adjacent characters only.

Main results:

- Theorem {lit}`checkFilterChars_eq_none_iff`: what the checks on pairs of characters
  amount to on levels.
- Theorem {lit}`topicFilterViolation_eq_none_iff`: a topic filter is well formed exactly
  if it has an admissible length and no NUL, and if its levels are those of a filter.
- Theorem {lit}`Subscription.accepts_iff_grammar`: a subscription accepts the grammar of
  topic filters, and throws on everything else.
-/

namespace WallyIo
namespace Protocol

open Library

/-! ## Levels -/

/-- The levels of a topic or a topic filter. -/
def topicLevels (topic : Bytes) : List Bytes := topic.splitOn 0x2F

/-- The wildcard for any single level. -/
def singleLevel : Bytes := [0x2B]

/-- The wildcard for all the levels that remain. -/
def multiLevel : Bytes := [0x23]

/-- A level without separators and wildcards. -/
def PlainLevel (level : Bytes) : Prop := 0x2F ∉ level ∧ 0x2B ∉ level ∧ 0x23 ∉ level

/-- The levels of a topic filter: only the last one may be a multi-level wildcard. -/
def FilterLevels : List Bytes → Prop
  | [] => True
  | level :: levels =>
      (level = multiLevel ∧ levels = []) ∨
        (level = singleLevel ∨ PlainLevel level) ∧ FilterLevels levels

/-- Whether a topic filter matches a topic level by level. -/
def FilterMatches (topicFilter topic : Bytes) : Prop :=
  LevelPattern.Matches singleLevel multiLevel (topicLevels topicFilter) (topicLevels topic)

instance (topicFilter topic : Bytes) : Decidable (FilterMatches topicFilter topic) :=
  inferInstanceAs (Decidable (LevelPattern.Matches _ _ _ _))

variable {c : UInt8} {topic topicFilter level : Bytes} {levels : List Bytes}

@[simp]
theorem topicLevels_nil : topicLevels [] = [[]] := rfl

@[simp]
theorem topicLevels_cons_slash : topicLevels (0x2F :: topic) = [] :: topicLevels topic := by
  simp [topicLevels, List.splitOn_cons_eq_if_modifyHead]

theorem topicLevels_cons_of_ne (hc : c ≠ 0x2F) :
    topicLevels (c :: topic) = (topicLevels topic).modifyHead (c :: ·) := by
  simp [topicLevels, List.splitOn_cons_eq_if_modifyHead, hc]

theorem exists_topicLevels (topic : Bytes) :
    ∃ level levels, topicLevels topic = level :: levels :=
  List.exists_cons_of_ne_nil (List.splitOn_ne_nil _ _)

@[simp]
theorem plainLevel_nil : PlainLevel [] := by simp [PlainLevel]

theorem plainLevel_cons_iff :
    PlainLevel (c :: level) ↔ (c ≠ 0x2F ∧ c ≠ 0x2B ∧ c ≠ 0x23) ∧ PlainLevel level := by
  simp only [PlainLevel, List.mem_cons, not_or]
  tauto

theorem PlainLevel.ne_singleLevel (h : PlainLevel level) : level ≠ singleLevel := by
  rintro rfl
  exact h.2.1 (List.mem_singleton.mpr rfl)

theorem PlainLevel.ne_multiLevel (h : PlainLevel level) : level ≠ multiLevel := by
  rintro rfl
  exact h.2.2 (List.mem_singleton.mpr rfl)

/-- Neither a single-level wildcard nor a plain level is a multi-level wildcard. -/
theorem ne_multiLevel_of_single_or_plain (h : level = singleLevel ∨ PlainLevel level) :
    level ≠ multiLevel := by
  rcases h with rfl | hplain
  · decide
  · exact hplain.ne_multiLevel

/-- A level that is no multi-level wildcard is followed by the levels of a filter. -/
theorem FilterLevels.of_ne_multiLevel (h : FilterLevels (level :: levels))
    (hmulti : level ≠ multiLevel) :
    (level = singleLevel ∨ PlainLevel level) ∧ FilterLevels levels := by
  rcases h with ⟨hlast, -⟩ | h
  · exact absurd hlast hmulti
  · exact h

/-- No level of a filter contains a separator. -/
theorem FilterLevels.not_mem_slash (hlevels : FilterLevels levels) :
    ∀ level ∈ levels, 0x2F ∉ level := by
  induction levels with
  | nil => exact fun level hlevel => absurd hlevel List.not_mem_nil
  | cons first rest ih =>
      rintro level hlevel
      rcases hlevels with ⟨rfl, rfl⟩ | ⟨hfirst, hrest⟩
      · rw [List.mem_singleton.mp hlevel]
        decide
      · rcases List.mem_cons.mp hlevel with rfl | hlevel
        · rcases hfirst with rfl | hplain
          · decide
          · exact hplain.1
        · exact ih hrest level hlevel

/-- The levels contain no separators. -/
theorem not_mem_of_mem_topicLevels (h : level ∈ topicLevels topic) : 0x2F ∉ level := by
  induction topic generalizing level with
  | nil =>
      rw [topicLevels_nil, List.mem_singleton] at h
      simp [h]
  | cons c topic ih =>
      obtain ⟨first, rest, hlevels⟩ := exists_topicLevels topic
      by_cases hc : c = 0x2F
      · subst hc
        rw [topicLevels_cons_slash, List.mem_cons] at h
        rcases h with rfl | h
        · exact List.not_mem_nil
        · exact ih h
      · rw [topicLevels_cons_of_ne hc, hlevels, List.modifyHead_cons, List.mem_cons] at h
        rcases h with rfl | h
        · have hfirst : 0x2F ∉ first := ih (by simp [hlevels])
          simpa [eq_comm, hc] using hfirst
        · exact ih (by simp [hlevels, h])

/-- The levels of a topic are made of its characters. -/
theorem mem_of_mem_topicLevels (hc : c ∈ level) (h : level ∈ topicLevels topic) :
    c ∈ topic := by
  induction topic generalizing level with
  | nil =>
      rw [topicLevels_nil, List.mem_singleton] at h
      exact absurd hc (by simp [h])
  | cons d topic ih =>
      obtain ⟨first, rest, hlevels⟩ := exists_topicLevels topic
      by_cases hd : d = 0x2F
      · subst hd
        rw [topicLevels_cons_slash, List.mem_cons] at h
        rcases h with rfl | h
        · exact absurd hc List.not_mem_nil
        · exact List.mem_cons_of_mem _ (ih hc h)
      · rw [topicLevels_cons_of_ne hd, hlevels, List.modifyHead_cons, List.mem_cons] at h
        rcases h with rfl | h
        · rcases List.mem_cons.mp hc with rfl | hc
          · exact List.mem_cons_self
          · exact List.mem_cons_of_mem _ (ih hc (by simp [hlevels]))
        · exact List.mem_cons_of_mem _ (ih hc (by simp [hlevels, h]))

/-! ## Well-formed topic filters -/

/-- What the rest of a topic filter has to consist of, behind a given character. -/
def LevelsBehind (previousChar : UInt8) : List Bytes → Prop
  | [] => False
  | level :: levels =>
      if previousChar = 0x00 ∨ previousChar = 0x2F then FilterLevels (level :: levels)
      else if previousChar = 0x2B then level = [] ∧ FilterLevels levels
      else if previousChar = 0x23 then level = [] ∧ levels = []
      else PlainLevel level ∧ FilterLevels levels

variable {previousChar : UInt8}

/-- A separator may stand behind anything but a multi-level wildcard. -/
theorem levelsBehind_slash :
    checkFilterChar previousChar 0x2F = none ∧ LevelsBehind 0x2F (level :: levels) ↔
      LevelsBehind previousChar ([] :: level :: levels) := by
  by_cases hhash : previousChar = 0x23
  · simp [checkFilterChar, LevelsBehind, hhash]
  · simp [checkFilterChar, LevelsBehind, hhash, FilterLevels, singleLevel, multiLevel]

/-- A wildcard begins a level, and a single-level wildcard ends it. -/
theorem levelsBehind_plus :
    checkFilterChar previousChar 0x2B = none ∧ LevelsBehind 0x2B (level :: levels) ↔
      LevelsBehind previousChar ((0x2B :: level) :: levels) := by
  by_cases hhash : previousChar = 0x23
  · simp [checkFilterChar, LevelsBehind, hhash]
  · by_cases hstart : previousChar = 0x00 ∨ previousChar = 0x2F
    · rcases hstart with rfl | rfl <;>
        simp [checkFilterChar, LevelsBehind, FilterLevels, singleLevel, multiLevel,
          plainLevel_cons_iff]
    · simp only [not_or] at hstart
      simp [checkFilterChar, LevelsBehind, hhash, hstart, plainLevel_cons_iff]

/-- A multi-level wildcard is the end of the topic filter. -/
theorem levelsBehind_hash :
    checkFilterChar previousChar 0x23 = none ∧ LevelsBehind 0x23 (level :: levels) ↔
      LevelsBehind previousChar ((0x23 :: level) :: levels) := by
  by_cases hhash : previousChar = 0x23
  · simp [checkFilterChar, LevelsBehind, hhash]
  · by_cases hstart : previousChar = 0x00 ∨ previousChar = 0x2F
    · rcases hstart with rfl | rfl <;>
        simp [checkFilterChar, LevelsBehind, FilterLevels, singleLevel, multiLevel,
          plainLevel_cons_iff]
    · simp only [not_or] at hstart
      simp [checkFilterChar, LevelsBehind, hhash, hstart, plainLevel_cons_iff]

/-- A regular character does not stand behind a wildcard. -/
theorem levelsBehind_regular (hnull : c ≠ 0x00) (hslash : c ≠ 0x2F) (hplus : c ≠ 0x2B)
    (hhash : c ≠ 0x23) :
    checkFilterChar previousChar c = none ∧ LevelsBehind c (level :: levels) ↔
      LevelsBehind previousChar ((c :: level) :: levels) := by
  by_cases hstart : previousChar = 0x00 ∨ previousChar = 0x2F
  · rcases hstart with rfl | rfl <;>
      simp [checkFilterChar, LevelsBehind, FilterLevels, singleLevel, multiLevel,
        plainLevel_cons_iff, *]
  · by_cases hwildcard : previousChar = 0x2B ∨ previousChar = 0x23
    · rcases hwildcard with rfl | rfl <;> simp [checkFilterChar, LevelsBehind, *]
    · simp only [not_or] at hstart hwildcard
      simp [checkFilterChar, LevelsBehind, plainLevel_cons_iff, *]

/-- What the checks on pairs of characters amount to on levels. -/
theorem checkFilterChars_eq_none_iff :
    checkFilterChars previousChar topicFilter = none ↔
      0x00 ∉ topicFilter ∧ LevelsBehind previousChar (topicLevels topicFilter) := by
  induction topicFilter generalizing previousChar with
  | nil => simp [checkFilterChars, LevelsBehind, FilterLevels]
  | cons c rest ih =>
      have hstep : checkFilterChars previousChar (c :: rest) = none ↔
          checkFilterChar previousChar c = none ∧ checkFilterChars c rest = none := by
        rw [checkFilterChars]
        cases checkFilterChar previousChar c <;> simp
      obtain ⟨level, levels, hlevels⟩ := exists_topicLevels rest
      rw [hstep, ih, List.mem_cons, not_or, and_left_comm, hlevels]
      by_cases hnull : c = 0x00
      · subst hnull
        simp [checkFilterChar]
      have hnull' : 0x00 ≠ c := fun h => hnull h.symm
      simp only [hnull', not_false_eq_true, true_and]
      refine and_congr_right fun _ => ?_
      by_cases hslash : c = 0x2F
      · subst hslash
        rw [levelsBehind_slash, topicLevels_cons_slash, hlevels]
      rw [topicLevels_cons_of_ne hslash, hlevels, List.modifyHead_cons]
      by_cases hplus : c = 0x2B
      · subst hplus
        exact levelsBehind_plus
      by_cases hhash : c = 0x23
      · subst hhash
        exact levelsBehind_hash
      exact levelsBehind_regular hnull hslash hplus hhash

/-- A topic filter is well formed exactly if it has an admissible length and no NUL, and
if its levels are those of a filter. -/
theorem topicFilterViolation_eq_none_iff :
    topicFilterViolation topicFilter = none ↔
      topicFilter ≠ [] ∧ topicFilter.length ≤ 65535 ∧ 0x00 ∉ topicFilter ∧
        FilterLevels (topicLevels topicFilter) := by
  obtain ⟨level, levels, hlevels⟩ := exists_topicLevels topicFilter
  have hchars : checkFilterChars 0x00 topicFilter = none ↔
      0x00 ∉ topicFilter ∧ FilterLevels (topicLevels topicFilter) := by
    rw [checkFilterChars_eq_none_iff, hlevels]
    simp [LevelsBehind]
  rw [← hchars, topicFilterViolation]
  split
  · rename_i hshort
    simp [List.eq_nil_of_length_eq_zero (by omega : topicFilter.length = 0)]
  · rename_i hshort
    have hnonempty : topicFilter ≠ [] := by
      rintro rfl
      exact hshort Nat.zero_lt_one
    split
    · rename_i hlong
      simp [hnonempty, Nat.not_le.mpr hlong]
    · rename_i hlong
      simp [hnonempty, Nat.not_lt.mp hlong]

/-! ## The grammar of topic filters -/

/-- What a level of a topic filter may be, given the levels behind it. -/
def AdmissibleLevel (level : Bytes) (after : List Bytes) : Prop :=
  level = singleLevel ∨ (level = multiLevel ∧ after = []) ∨ (0x2B ∉ level ∧ 0x23 ∉ level)

/-- The grammar of topic filters, stated on whole levels. -/
structure FilterGrammar (topicFilter : Bytes) : Prop where
  length : 1 ≤ topicFilter.length ∧ topicFilter.length ≤ 65535
  noNull : 0x00 ∉ topicFilter
  levels : ∀ before level after, topicLevels topicFilter = before ++ level :: after →
    AdmissibleLevel level after

/-- Without separators in it, an admissible level is a wildcard or plain. -/
theorem admissibleLevel_iff (hslash : 0x2F ∉ level) :
    AdmissibleLevel level levels ↔
      (level = multiLevel ∧ levels = []) ∨ level = singleLevel ∨ PlainLevel level := by
  simp only [AdmissibleLevel, PlainLevel, hslash, not_false_eq_true, true_and]
  exact or_left_comm

/-- The levels of a filter are those each of which is admissible before the others behind it. -/
theorem filterLevels_iff (hslash : ∀ level ∈ levels, 0x2F ∉ level) :
    FilterLevels levels ↔
      ∀ before level after, levels = before ++ level :: after → AdmissibleLevel level after := by
  induction levels with
  | nil => simp [FilterLevels]
  | cons first rest ih =>
      have hfirst : AdmissibleLevel first rest ↔ _ := admissibleLevel_iff (hslash first (by simp))
      have hrest := ih fun level hlevel => hslash level (List.mem_cons_of_mem _ hlevel)
      constructor
      · intro h before level after hsplit
        rcases List.cons_eq_append_iff.mp hsplit with ⟨rfl, heq⟩ | ⟨before', rfl, heq⟩
        · cases heq
          exact hfirst.mpr (h.imp id And.left)
        · rcases h with ⟨-, rfl⟩ | ⟨-, hlevels⟩
          · cases before' <;> cases heq
          · exact hrest.mp hlevels before' level after heq
      · intro h
        rcases hfirst.mp (h [] first rest rfl) with hlast | hkind
        · exact Or.inl hlast
        · refine Or.inr ⟨hkind, hrest.mpr ?_⟩
          rintro before level after rfl
          exact h (first :: before) level after rfl

/-- The checks of the constructor decide the grammar. -/
theorem filterGrammar_iff :
    FilterGrammar topicFilter ↔ topicFilterViolation topicFilter = none := by
  have hlevels : FilterLevels (topicLevels topicFilter) ↔ _ :=
    filterLevels_iff fun level hlevel => not_mem_of_mem_topicLevels hlevel
  rw [topicFilterViolation_eq_none_iff, hlevels, ← List.length_pos_iff]
  constructor
  · rintro ⟨⟨hpos, hlong⟩, hnull, hlevels⟩
    exact ⟨hpos, hlong, hnull, hlevels⟩
  · rintro ⟨hpos, hlong, hnull, hlevels⟩
    exact ⟨⟨hpos, hlong⟩, hnull, hlevels⟩

/-- A subscription is built from every topic filter of the grammar, and from no other one:
there the constructor throws. -/
theorem Subscription.accepts_iff_grammar (topicFilter : Bytes) (maximumQos : QoS) :
    ((∃ s, Subscription.create topicFilter maximumQos = .ok s ∧ s.topicFilter = topicFilter ∧
        s.maximumQos = maximumQos) ↔ FilterGrammar topicFilter) ∧
      (¬ FilterGrammar topicFilter → ∃ what,
        Subscription.create topicFilter maximumQos = .error (.malformedMqttPacket what)) := by
  rw [filterGrammar_iff]
  cases hviolation : topicFilterViolation topicFilter with
  | none =>
      refine ⟨?_, fun h => absurd rfl h⟩
      simp only [iff_true]
      exact ⟨⟨topicFilter, maximumQos, hviolation⟩, Subscription.create_eq_ok_iff.mpr ⟨rfl, rfl⟩,
        rfl, rfl⟩
  | some mqttRef =>
      have hthrows : ∃ what,
          Subscription.create topicFilter maximumQos = .error (.malformedMqttPacket what) := by
        unfold Subscription.create
        split
        · rename_i hnone
          rw [hviolation] at hnone
          cases hnone
        · exact ⟨_, rfl⟩
      refine ⟨?_, fun _ => hthrows⟩
      obtain ⟨what, hwhat⟩ := hthrows
      simp [hwhat]

end Protocol
end WallyIo
