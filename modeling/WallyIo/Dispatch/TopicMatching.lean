import WallyIo.Codec.PublishCodec
import WallyIo.Dispatch.TopicSubscriptions
import WallyIo.Protocol.TopicLevels

/-!
# Topic filters and the topics they match

The scan over the characters of a topic filter and a topic is compared with the meaning
of topic filters, which is about levels.

Main results:

- Theorem {lit}`topicFilterMatchesTopic_eq`: the scan works level by level.
- Theorem {lit}`scanLevels_iff`: it differs from the meaning where the topic ends within
  the filter, and where the topic ends with an empty level.
- Theorem {lit}`matching_sound_iff`: when a match that is found is one.
- Theorem {lit}`matching_complete_iff`: when a match is found.
-/

namespace WallyIo
namespace Dispatch

open Protocol Library Codec LevelPattern

/-! ## The scan level by level -/

/-- Whether the levels that remain of a filter end with the multi-level wildcard. -/
def EndsInMulti (levels : List Bytes) : Prop := levels.getLast? = some multiLevel

instance (levels : List Bytes) : Decidable (EndsInMulti levels) :=
  inferInstanceAs (Decidable (_ = _))

/-- The scan in terms of levels.  When the topic is used up, what remains of the filter
is searched for a multi-level wildcard at its end. -/
def scanLevels : List Bytes → List Bytes → Bool
  | [], topics => decide (topics = [])
  | filter :: filters, [] => decide (EndsInMulti (filter :: filters))
  | filter :: filters, topic :: topics =>
      if topic = [] ∧ topics = [] then
        decide (filter = [] ∧ filters = [] ∨ EndsInMulti filters)
      else if filter = multiLevel then true
      else if LevelMatches singleLevel filter topic then scanLevels filters topics
      else decide (topics = [] ∧ topic <+: filter ∧ EndsInMulti filters)

variable {filter topic rest : Bytes} {filters topics : List Bytes} {c d : UInt8}

/-- What is decided about the rests of topic filter and topic behind the loop. -/
def decideRests (filterRest topicRest : Bytes) : Bool :=
  if topicRest = [] ∧ filterRest = [] then true else decide ([0x2F, 0x23] <:+ filterRest)

/-- The result of loop and decision. -/
def scan (topicFilter topic : Bytes) : Bool :=
  match topicFilterLoop topicFilter topic with
  | .inl result => result
  | .inr (filterRest, topicRest) => decideRests filterRest topicRest

/-- The loop leaves an end of the topic filter. -/
theorem suffix_of_topicFilterLoop {topicFilter filterRest topicRest : Bytes}
    (h : topicFilterLoop topicFilter topic = .inr (filterRest, topicRest)) :
    filterRest <:+ topicFilter := by
  induction topicFilter generalizing topic with
  | nil =>
      rw [topicFilterLoop] at h
      cases h
      exact List.suffix_rfl
  | cons tfChar topicFilter ih =>
      cases topic with
      | nil =>
          cases h
          exact List.suffix_rfl
      | cons tChar topic =>
          rw [topicFilterLoop] at h
          have hcons := List.suffix_cons tfChar topicFilter
          split at h
          · exact (ih h).trans hcons
          · split at h
            · cases h
            · split at h
              · cases h
              · exact (ih h).trans hcons

/-- The comparison of the last two characters of a topic filter is about its rest. -/
theorem comparison_iff (front filterRest : Bytes) :
    (front ++ filterRest).length - filterRest.length < (front ++ filterRest).length - 1 ∧
        (front ++ filterRest).drop ((front ++ filterRest).length - 2) = [0x2F, 0x23] ↔
      [0x2F, 0x23] <:+ filterRest := by
  rw [List.length_append, List.suffix_iff_eq_drop]
  have hdrop : 2 ≤ filterRest.length →
      (front ++ filterRest).drop (front.length + filterRest.length - 2) =
        filterRest.drop (filterRest.length - 2) := by
    intro htwo
    rw [Nat.add_sub_assoc htwo, List.drop_append, List.drop_eq_nil_of_le (by omega),
      Nat.add_sub_cancel_left]
    rfl
  constructor
  · rintro ⟨hlength, hend⟩
    rw [hdrop (by omega)] at hend
    exact hend.symm
  · intro hend
    have htwo : 2 ≤ filterRest.length := by
      have hlength := congrArg List.length hend
      simp only [List.length_cons, List.length_nil, List.length_drop] at hlength
      omega
    refine ⟨by omega, ?_⟩
    rw [hdrop htwo]
    exact hend.symm

theorem topicFilterMatchesTopic_eq_scan {topicFilter : Bytes} :
    topicFilterMatchesTopic topicFilter topic = scan topicFilter topic := by
  rw [topicFilterMatchesTopic, scan]
  cases hloop : topicFilterLoop topicFilter topic with
  | inl result => rfl
  | inr rests =>
      obtain ⟨filterRest, topicRest⟩ := rests
      obtain ⟨front, rfl⟩ := suffix_of_topicFilterLoop hloop
      simp only [decideRests, ← comparison_iff front, Bool.decide_and, beq_eq_decide]

/-! ## Steps of the scan -/

variable {topicFilter : Bytes}

/-- The topic filter is used up. -/
theorem scan_nil_left : scan [] topic = decide (topic = []) := by
  have hend : ¬ [0x2F, 0x23] <:+ ([] : Bytes) := by simp
  simp [scan, topicFilterLoop, decideRests, hend]

/-- The topic is used up. -/
theorem scan_nil_right : scan topicFilter [] = decideRests topicFilter [] := by
  cases topicFilter <;> rfl

/-- A single-level wildcard takes the rest of a level. -/
theorem scan_plus : scan (0x2B :: topicFilter) (d :: topic) =
    scan topicFilter ((d :: topic).dropWhile (· ≠ 0x2F)) := by
  by_cases hd : d = 0x2F
  · simp [scan, topicFilterLoop, hd]
  · simp [scan, topicFilterLoop, hd]

/-- A multi-level wildcard takes everything. -/
theorem scan_hash : scan (0x23 :: topicFilter) (d :: topic) = true := rfl

/-- A regular character takes itself. -/
theorem scan_cons_self (hplus : c ≠ 0x2B) (hhash : c ≠ 0x23) :
    scan (c :: topicFilter) (c :: topic) = scan topicFilter topic := by
  simp [scan, topicFilterLoop, hplus, hhash]

/-- A regular character takes no other one. -/
theorem scan_cons_of_ne (hplus : c ≠ 0x2B) (hhash : c ≠ 0x23) (hd : d ≠ c) :
    scan (c :: topicFilter) (d :: topic) = false := by
  simp [scan, topicFilterLoop, hplus, hhash, hd]

/-! ## The scan of one level -/

/-- Levels, each behind a separator. -/
def behindSlashes (levels : List Bytes) : Bytes := levels.flatMap (0x2F :: ·)

theorem behindSlashes_cons :
    behindSlashes (filter :: filters) = 0x2F :: (filter ++ behindSlashes filters) := rfl

/-- Joined levels end with a slash and a multi-level wildcard exactly if the wildcard is
the last level of several ones. -/
theorem suffix_iff_endsInMulti (hfilter : 0x2F ∉ filter)
    (hfilters : ∀ level ∈ filters, 0x2F ∉ level) :
    [0x2F, 0x23] <:+ filter ++ behindSlashes filters ↔ EndsInMulti filters := by
  rcases List.eq_nil_or_concat' filters with rfl | ⟨front, last, rfl⟩
  · have hslash : ¬ [0x2F, 0x23] <:+ filter ++ behindSlashes [] := by
      intro h
      rw [behindSlashes, List.flatMap_nil, List.append_nil] at h
      exact hfilter (h.subset List.mem_cons_self)
    simp [hslash, EndsInMulti]
  · have hlast : 0x2F ∉ last := hfilters last (by simp)
    have hends : EndsInMulti (front ++ [last]) ↔ last = multiLevel := by
      rw [EndsInMulti, List.getLast?_concat, Option.some_inj]
    have hjoined : filter ++ behindSlashes (front ++ [last]) =
        (filter ++ behindSlashes front) ++ 0x2F :: last := by
      simp [behindSlashes]
    rw [hends, hjoined]
    constructor
    · rintro ⟨whole, hwhole⟩
      -- both sides are split at their slashes, and the last levels are compared
      have hsplit := congrArg (List.splitOn 0x2F) hwhole
      rw [List.splitOn_append_cons_self, List.splitOn_append_cons_self,
        List.splitOn_eq_singleton hlast] at hsplit
      exact (List.singleton_inj.mp (List.append_inj_right' hsplit rfl)).symm
    · rintro rfl
      exact List.suffix_append _ _

/-- The decision, when the topic is used up at the beginning of a level or within it. -/
theorem decideRests_levels (hfilter : 0x2F ∉ filter)
    (hfilters : ∀ level ∈ filters, 0x2F ∉ level) :
    decideRests (filter ++ behindSlashes filters) [] =
      decide (filter = [] ∧ filters = [] ∨ EndsInMulti filters) := by
  have hempty : filter ++ behindSlashes filters = [] ↔ filter = [] ∧ filters = [] := by
    cases filters <;> simp [behindSlashes]
  by_cases hall : filter = [] ∧ filters = []
  · simp [decideRests, hall, behindSlashes]
  · rw [decideRests, if_neg (fun h => hall (hempty.mp h.2))]
    simp only [suffix_iff_endsInMulti hfilter hfilters, hall, false_or]

/-- Equal levels are taken off together. -/
theorem scan_append_plain (hplain : PlainLevel filter) :
    scan (filter ++ topicFilter) (filter ++ topic) = scan topicFilter topic := by
  induction filter with
  | nil => rfl
  | cons c filter ih =>
      obtain ⟨⟨hslash, hplus, hhash⟩, hrest⟩ := plainLevel_cons_iff.mp hplain
      rw [List.cons_append, List.cons_append, scan_cons_self hplus hhash, ih hrest]

/-- At a level that differs, the scan fails, unless the topic ends within the level. -/
theorem scan_append_of_ne (hfilter : PlainLevel filter) (htopic : PlainLevel topic)
    (hne : filter ≠ topic) (hfilters : ∀ level ∈ filters, 0x2F ∉ level) :
    scan (filter ++ behindSlashes filters) (topic ++ behindSlashes topics) =
      decide (topics = [] ∧ topic <+: filter ∧ EndsInMulti filters) := by
  induction filter generalizing topic with
  | nil =>
      cases topic with
      | nil => exact absurd rfl hne
      | cons d topic =>
          obtain ⟨⟨hslash, -, -⟩, -⟩ := plainLevel_cons_iff.mp htopic
          cases filters with
          | nil => simp [behindSlashes, scan_nil_left, EndsInMulti]
          | cons level levels =>
              rw [List.nil_append, List.cons_append, behindSlashes_cons,
                scan_cons_of_ne (by decide) (by decide) hslash]
              simp
  | cons c filter ih =>
      obtain ⟨⟨hslash, hplus, hhash⟩, hrest⟩ := plainLevel_cons_iff.mp hfilter
      cases topic with
      | nil =>
          cases topics with
          | nil =>
              have hend : [] ++ behindSlashes [] = ([] : Bytes) := rfl
              rw [hend, scan_nil_right, decideRests_levels hfilter.1 hfilters]
              simp
          | cons level levels =>
              rw [List.nil_append, List.cons_append, behindSlashes_cons,
                scan_cons_of_ne hplus hhash (fun h => hslash h.symm)]
              simp
      | cons d topic =>
          rw [List.cons_append, List.cons_append]
          by_cases hd : d = c
          · subst hd
            rw [scan_cons_self hplus hhash,
              ih hrest (plainLevel_cons_iff.mp htopic).2 (fun h => hne (by rw [h]))]
            simp [List.cons_prefix_cons]
          · rw [scan_cons_of_ne hplus hhash hd]
            simp [List.cons_prefix_cons, hd]

/-- A topic's level is skipped up to the next separator. -/
theorem dropWhile_level (htopic : 0x2F ∉ topic) :
    (topic ++ behindSlashes topics).dropWhile (· ≠ 0x2F) = behindSlashes topics := by
  have hskip : ∀ c ∈ topic, decide (c ≠ 0x2F) = true := by
    intro c hc
    exact decide_eq_true (fun h => htopic (h ▸ hc))
  rw [List.dropWhile_append_of_pos hskip]
  cases topics with
  | nil => rfl
  | cons level levels => simp [behindSlashes_cons]

/-- The scan of one level. -/
theorem scan_level (hfilters : FilterLevels (filter :: filters))
    (htopic : PlainLevel topic) :
    scan (filter ++ behindSlashes filters) (topic ++ behindSlashes topics) =
      if topic = [] ∧ topics = [] then
        decide (filter = [] ∧ filters = [] ∨ EndsInMulti filters)
      else if filter = multiLevel then true
      else if LevelMatches singleLevel filter topic then
        scan (behindSlashes filters) (behindSlashes topics)
      else decide (topics = [] ∧ topic <+: filter ∧ EndsInMulti filters) := by
  have hslashes := hfilters.not_mem_slash
  have hslash := hslashes filter List.mem_cons_self
  have hslashes : ∀ level ∈ filters, 0x2F ∉ level :=
    fun level hlevel => hslashes level (List.mem_cons_of_mem _ hlevel)
  split
  · rename_i hend
    obtain ⟨rfl, rfl⟩ := hend
    have hend : [] ++ behindSlashes [] = ([] : Bytes) := rfl
    rw [hend, scan_nil_right, decideRests_levels hslash hslashes]
  · rename_i hmore
    have hnonempty : ∃ d rest, topic ++ behindSlashes topics = d :: rest := by
      apply List.exists_cons_of_ne_nil
      cases topics <;> simp_all [behindSlashes]
    split
    · rename_i hmulti
      obtain ⟨d, rest, hrest⟩ := hnonempty
      rw [hrest, hmulti]
      exact scan_hash
    · rename_i hmulti
      have hfilter := (hfilters.of_ne_multiLevel hmulti).1
      split
      · rename_i hlevel
        rcases hlevel with rfl | rfl
        · obtain ⟨d, rest, hrest⟩ := hnonempty
          have hdrop : (topic ++ behindSlashes topics).dropWhile (· ≠ 0x2F) =
              behindSlashes topics := dropWhile_level htopic.1
          rw [hrest] at hdrop ⊢
          rw [← hdrop]
          exact scan_plus
        · exact scan_append_plain htopic
      · rename_i hlevel
        have hplain : PlainLevel filter := by
          rcases hfilter with h | h
          · exact absurd (Or.inl h) hlevel
          · exact h
        exact scan_append_of_ne hplain htopic (fun h => hlevel (Or.inr h)) hslashes

/-- The scan of the levels that remain, each behind a separator. -/
theorem scan_behindSlashes (hfilters : FilterLevels filters)
    (htopics : ∀ topic ∈ topics, PlainLevel topic) :
    scan (behindSlashes filters) (behindSlashes topics) = scanLevels filters topics := by
  induction filters generalizing topics with
  | nil =>
      have hnil : behindSlashes [] = [] := rfl
      rw [hnil, scan_nil_left, scanLevels]
      cases topics <;> simp [behindSlashes]
  | cons filter filters ih =>
      cases topics with
      | nil =>
          have hnil : behindSlashes [] = [] := rfl
          rw [hnil, scan_nil_right, scanLevels]
          have hrests : decideRests ([] ++ behindSlashes (filter :: filters)) [] = _ :=
            decideRests_levels List.not_mem_nil hfilters.not_mem_slash
          simpa using hrests
      | cons topic topics =>
          rw [behindSlashes_cons, behindSlashes_cons,
            scan_cons_self (by decide) (by decide),
            scan_level hfilters (htopics topic List.mem_cons_self), scanLevels]
          split
          · rfl
          · split
            · rfl
            · rename_i hmulti
              split
              · exact ih (hfilters.of_ne_multiLevel hmulti).2
                  fun t ht => htopics t (List.mem_cons_of_mem _ ht)
              · rfl

/-- The scan works level by level. -/
theorem topicFilterMatchesTopic_eq {topicFilter : Bytes}
    (hfilter : FilterLevels (topicLevels topicFilter))
    (htopic : ∀ level ∈ topicLevels topic, PlainLevel level) :
    topicFilterMatchesTopic topicFilter topic =
      scanLevels (topicLevels topicFilter) (topicLevels topic) := by
  have hjoin (name : Bytes) : behindSlashes (topicLevels name) = 0x2F :: name := by
    obtain ⟨level, levels, hlevels⟩ := exists_topicLevels name
    rw [hlevels, behindSlashes_cons, behindSlashes, ← intercalate_cons, ← hlevels, topicLevels,
      List.intercalate_splitOn]
  rw [← scan_behindSlashes hfilter htopic, hjoin, hjoin, scan_cons_self (by decide) (by decide),
    topicFilterMatchesTopic_eq_scan]

/-! ## Where the scan and the meaning part -/

/-- The topic ends within a filter that ends with a multi-level wildcard: its levels match
those of the filter and leave at least one more level in front of the wildcard, or its last
level is merely the beginning of a level. -/
inductive EndsEarly : List Bytes → List Bytes → Prop
  | between {filter : Bytes} {filters : List Bytes} (multi : EndsInMulti filters) :
      EndsEarly (filter :: filters) []
  | within {filter topic : Bytes} {filters : List Bytes} (regular : filter ≠ singleLevel)
      (beginning : topic <+: filter) (ne : topic ≠ filter) (multi : EndsInMulti filters) :
      EndsEarly (filter :: filters) [topic]
  | level {filter topic : Bytes} {filters topics : List Bytes}
      (head : LevelMatches singleLevel filter topic) (tail : EndsEarly filters topics) :
      EndsEarly (filter :: filters) (topic :: topics)

/-- The topic ends with an empty level, and the level of the filter at this position is its
last one and a wildcard. -/
inductive EmptyEnd : List Bytes → List Bytes → Prop
  | last {filter : Bytes} (wildcard : filter = singleLevel ∨ filter = multiLevel) :
      EmptyEnd [filter] [[]]
  | level {filter topic : Bytes} {filters topics : List Bytes}
      (head : LevelMatches singleLevel filter topic) (tail : EmptyEnd filters topics) :
      EmptyEnd (filter :: filters) (topic :: topics)

@[simp]
theorem endsInMulti_nil : ¬ EndsInMulti [] := fun h => by cases h

theorem endsInMulti_cons_iff :
    EndsInMulti (filter :: filters) ↔
      (filters = [] ∧ filter = multiLevel) ∨ EndsInMulti filters := by
  cases filters with
  | nil => simp [EndsInMulti]
  | cons level levels => simp [EndsInMulti, List.getLast?_cons_cons]

@[simp]
theorem not_endsEarly_nil : ¬ EndsEarly [] topics := fun h => by cases h

@[simp]
theorem endsEarly_cons_nil_iff : EndsEarly (filter :: filters) [] ↔ EndsInMulti filters := by
  constructor
  · intro h
    cases h with
    | between multi => exact multi
  · exact .between

theorem endsEarly_cons_cons_iff :
    EndsEarly (filter :: filters) (topic :: topics) ↔
      (topics = [] ∧ filter ≠ singleLevel ∧ topic <+: filter ∧ topic ≠ filter ∧
        EndsInMulti filters) ∨
      LevelMatches singleLevel filter topic ∧ EndsEarly filters topics := by
  constructor
  · intro h
    cases h with
    | within regular beginning ne multi =>
        exact Or.inl ⟨rfl, regular, beginning, ne, multi⟩
    | level head tail => exact Or.inr ⟨head, tail⟩
  · rintro (⟨rfl, regular, beginning, ne, multi⟩ | ⟨head, tail⟩)
    · exact .within regular beginning ne multi
    · exact .level head tail

@[simp]
theorem not_emptyEnd_nil : ¬ EmptyEnd [] topics := fun h => by cases h

@[simp]
theorem not_emptyEnd_cons_nil : ¬ EmptyEnd (filter :: filters) [] := fun h => by cases h

theorem emptyEnd_cons_cons_iff :
    EmptyEnd (filter :: filters) (topic :: topics) ↔
      (topic = [] ∧ topics = [] ∧ filters = [] ∧
        (filter = singleLevel ∨ filter = multiLevel)) ∨
      LevelMatches singleLevel filter topic ∧ EmptyEnd filters topics := by
  constructor
  · intro h
    cases h with
    | last wildcard => exact Or.inl ⟨rfl, rfl, rfl, wildcard⟩
    | level head tail => exact Or.inr ⟨head, tail⟩
  · rintro (⟨rfl, rfl, rfl, wildcard⟩ | ⟨head, tail⟩)
    · exact .last wildcard
    · exact .level head tail

/-- The meaning, the scan and the two differences at the end of a topic. -/
theorem scanLevels_emptyLevel_iff (hfilters : FilterLevels (filter :: filters)) :
    filter = [] ∧ filters = [] ∨ EndsInMulti filters ↔
      (Matches singleLevel multiLevel (filter :: filters) [[]] ∧
        ¬ EmptyEnd (filter :: filters) [[]]) ∨ EndsEarly (filter :: filters) [[]] := by
  rw [matches_cons_cons_iff, emptyEnd_cons_cons_iff, endsEarly_cons_cons_iff]
  rcases hfilters with ⟨rfl, rfl⟩ | ⟨hfilter, -⟩
  · -- the multi-level wildcard stands where the topic ends
    simp [LevelMatches, multiLevel, singleLevel]
  · have hmulti := ne_multiLevel_of_single_or_plain hfilter
    cases filters with
    | nil =>
        rcases hfilter with rfl | hplain
        · simp [LevelMatches, singleLevel, multiLevel]
        · simp [LevelMatches, hmulti, hplain.ne_singleLevel]
    | cons level levels =>
        by_cases hlevel : LevelMatches singleLevel filter []
        · have hwithin : ¬ (filter ≠ singleLevel ∧ [] ≠ filter) := by
            rintro ⟨hsingle, hempty⟩
            rcases hlevel with h | h
            · exact hsingle h
            · exact hempty h.symm
          simp only [hlevel, hmulti, endsInMulti_cons_iff, matches_cons_nil_iff,
            endsEarly_cons_nil_iff, not_emptyEnd_cons_nil]
          grind
        · simp only [LevelMatches, not_or] at hlevel
          simp [LevelMatches, hlevel, hmulti, eq_comm]

/-- The scan differs from the meaning where the topic ends within the filter, and where it
ends with an empty level. -/
theorem scanLevels_iff (hfilters : FilterLevels filters) :
    scanLevels filters topics = true ↔
      (Matches singleLevel multiLevel filters topics ∧ ¬ EmptyEnd filters topics) ∨
        EndsEarly filters topics := by
  induction filters generalizing topics with
  | nil => simp [scanLevels]
  | cons filter filters ih =>
      cases topics with
      | nil =>
          simp [scanLevels, endsInMulti_cons_iff, and_comm]
      | cons topic topics =>
          rw [scanLevels]
          split
          · rename_i hend
            obtain ⟨rfl, rfl⟩ := hend
            rw [decide_eq_true_iff]
            exact scanLevels_emptyLevel_iff hfilters
          · rename_i hend
            rw [matches_cons_cons_iff, emptyEnd_cons_cons_iff, endsEarly_cons_cons_iff]
            rcases hfilters with ⟨rfl, rfl⟩ | ⟨hfilter, hrest⟩
            · have hlast : ¬ (topic = [] ∧ topics = [] ∧ True ∧ True) :=
                fun h => hend ⟨h.1, h.2.1⟩
              simp_all
            · have hmulti := ne_multiLevel_of_single_or_plain hfilter
              rw [if_neg hmulti]
              split
              · rename_i hlevel
                rw [ih hrest]
                have hwithin : filter ≠ singleLevel → topic ≠ filter → False := by
                  intro hsingle hne
                  rcases hlevel with h | h
                  · exact hsingle h
                  · exact hne h.symm
                grind
              · rename_i hlevel
                simp only [LevelMatches, not_or] at hlevel
                simp only [LevelMatches, hlevel, hmulti]
                grind

/-- A topic that ends early does not match. -/
theorem EndsEarly.not_matches (h : EndsEarly filters topics) (hfilters : FilterLevels filters) :
    ¬ Matches singleLevel multiLevel filters topics := by
  induction h with
  | between multi =>
      intro hmatches
      rw [(matches_cons_nil_iff.mp hmatches).2] at multi
      exact endsInMulti_nil multi
  | within regular beginning ne multi =>
      intro hmatches
      rcases matches_cons_cons_iff.mp hmatches with ⟨-, rfl⟩ | ⟨hlevel, -⟩
      · exact endsInMulti_nil multi
      · rcases hlevel with h | h
        · exact regular h
        · exact ne h.symm
  | level head tail ih =>
      intro hmatches
      rcases matches_cons_cons_iff.mp hmatches with ⟨-, rfl⟩ | ⟨-, hrest⟩
      · exact not_endsEarly_nil tail
      · rcases hfilters with ⟨-, rfl⟩ | ⟨-, hfilters⟩
        · exact not_endsEarly_nil tail
        · exact ih hfilters hrest

/-- A topic that ends with an empty level at the wildcard matches. -/
theorem EmptyEnd.matches (h : EmptyEnd filters topics) :
    Matches singleLevel multiLevel filters topics := by
  induction h with
  | last wildcard =>
      rcases wildcard with rfl | rfl
      · exact .level (Or.inl rfl) .nil
      · exact .multi _
  | level head tail ih => exact .level head ih

/-! ## Soundness and completeness -/

/-- The levels of a topic name have no wildcards. -/
theorem plainLevel_of_wellFormed (h : WellFormedTopicName topic) :
    ∀ level ∈ topicLevels topic, PlainLevel level := fun _ hlevel =>
  ⟨not_mem_of_mem_topicLevels hlevel, fun hc => h.noPlus (mem_of_mem_topicLevels hc hlevel),
    fun hc => h.noHash (mem_of_mem_topicLevels hc hlevel)⟩

/-- The levels of a subscription's topic filter are those of a filter. -/
theorem filterLevels_subscription (s : Subscription) :
    FilterLevels (topicLevels s.topicFilter) :=
  (topicFilterViolation_eq_none_iff.mp s.wellFormed).2.2.2

/-- What the scan finds for a subscription and a topic name. -/
theorem topicFilterMatchesTopic_iff (s : Subscription) (h : WellFormedTopicName topic) :
    topicFilterMatchesTopic s.topicFilter topic = true ↔
      (FilterMatches s.topicFilter topic ∧
        ¬ EmptyEnd (topicLevels s.topicFilter) (topicLevels topic)) ∨
      EndsEarly (topicLevels s.topicFilter) (topicLevels topic) := by
  rw [topicFilterMatchesTopic_eq (filterLevels_subscription s) (plainLevel_of_wellFormed h)]
  exact scanLevels_iff (filterLevels_subscription s)

/-- A match that is found is one, unless the topic ends early. -/
theorem matching_sound_iff (s : Subscription) (h : WellFormedTopicName topic) :
    (topicFilterMatchesTopic s.topicFilter topic = true → FilterMatches s.topicFilter topic) ↔
      ¬ EndsEarly (topicLevels s.topicFilter) (topicLevels topic) := by
  rw [topicFilterMatchesTopic_iff s h]
  constructor
  · intro hsound hearly
    exact hearly.not_matches (filterLevels_subscription s) (hsound (Or.inr hearly))
  · rintro hearly (⟨hmatches, -⟩ | h)
    · exact hmatches
    · exact absurd h hearly

/-- The subscription to all levels below the two levels a and b. -/
def belowLevels : Subscription where
  topicFilter := [0x61, 0x2F, 0x62, 0x2F, 0x23]
  maximumQos := .atMostOnce
  wellFormed := rfl

theorem matching_sound_belowLevels :
    (topicFilterMatchesTopic belowLevels.topicFilter [0x61, 0x2F, 0x62] = true →
        FilterMatches belowLevels.topicFilter [0x61, 0x2F, 0x62]) ↔
      ¬ EndsEarly (topicLevels belowLevels.topicFilter) (topicLevels [0x61, 0x2F, 0x62]) :=
  matching_sound_iff belowLevels (by decide)

/-- The subscription to all levels below a and b is found for the topic a. -/
theorem matching_unsound :
    WellFormedTopicName [0x61] ∧
      topicFilterMatchesTopic belowLevels.topicFilter [0x61] = true ∧
      ¬ FilterMatches belowLevels.topicFilter [0x61] := by
  refine ⟨by decide, rfl, ?_⟩
  decide

/-- A match is found, unless the topic ends with an empty level at a wildcard. -/
theorem matching_complete_iff (s : Subscription) (h : WellFormedTopicName topic) :
    (FilterMatches s.topicFilter topic → topicFilterMatchesTopic s.topicFilter topic = true) ↔
      ¬ EmptyEnd (topicLevels s.topicFilter) (topicLevels topic) := by
  rw [topicFilterMatchesTopic_iff s h]
  constructor
  · intro hcomplete hempty
    rcases hcomplete hempty.matches with ⟨-, h⟩ | hearly
    · exact h hempty
    · exact hearly.not_matches (filterLevels_subscription s) hempty.matches
  · intro hempty hmatches
    exact Or.inl ⟨hmatches, hempty⟩

/-- The subscription to the single levels below the level a. -/
def singleLevelBelow : Subscription where
  topicFilter := [0x61, 0x2F, 0x2B]
  maximumQos := .atMostOnce
  wellFormed := rfl

theorem matching_complete_singleLevelBelow :
    (FilterMatches singleLevelBelow.topicFilter [0x61, 0x2F, 0x62] →
        topicFilterMatchesTopic singleLevelBelow.topicFilter [0x61, 0x2F, 0x62] = true) ↔
      ¬ EmptyEnd (topicLevels singleLevelBelow.topicFilter) (topicLevels [0x61, 0x2F, 0x62]) :=
  matching_complete_iff singleLevelBelow (by decide)

/-- The subscription to the single levels below a is not found for an empty one. -/
theorem matching_incomplete :
    WellFormedTopicName [0x61, 0x2F] ∧
      FilterMatches singleLevelBelow.topicFilter [0x61, 0x2F] ∧
      topicFilterMatchesTopic singleLevelBelow.topicFilter [0x61, 0x2F] = false := by
  refine ⟨by decide, ?_, rfl⟩
  decide

end Dispatch
end WallyIo
