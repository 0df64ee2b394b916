import Mathlib.Data.List.Basic
import Mathlib.InformationTheory.Coding.UniquelyDecodable
import Mathlib.Tactic.Common

/-!
# Streams of words

Words that are written one after another can be told apart if none of them begins another
one.  What has arrived of such a stream consists of whole words and of a rest that may go on
to become one.

Main results:

- Theorem {lit}`PrefixCode.uniquelyDecodable`: distinct sequences of words are distinct
  streams.
- Theorem {lit}`Parses.prefix_of_append`: when more of a stream arrives, the words that have
  been found remain.
-/

namespace WallyIo
namespace Library

open InformationTheory

variable {α : Type*}

/-- Words that are not empty and none of which begins another one. -/
structure PrefixCode (words : Set (List α)) : Prop where
  nonempty : ∀ w ∈ words, w ≠ []
  begins_eq : ∀ w ∈ words, ∀ w' ∈ words, w <+: w' → w = w'

/-- A stream consists of words and of a rest that does not begin with one. -/
structure Parses (words : Set (List α)) (stream : List α) (ws : List (List α))
    (rest : List α) : Prop where
  mem : ∀ w ∈ ws, w ∈ words
  stream_eq : stream = ws.flatten ++ rest
  unfinished : ∀ w ∈ words, ¬ w <+: rest

variable {words : Set (List α)} {stream rest rest' more : List α} {ws ws' : List (List α)}

namespace PrefixCode

/-- Of two words in front of the same stream none is longer. -/
theorem eq_of_append (h : PrefixCode words) {w w' : List α} (hw : w ∈ words) (hw' : w' ∈ words)
    (hstream : w ++ rest = w' ++ rest') : w = w' := by
  rcases List.prefix_or_prefix_of_prefix (List.prefix_append w rest)
    (hstream ▸ List.prefix_append w' rest') with hle | hle
  · exact h.begins_eq w hw w' hw' hle
  · exact (h.begins_eq w' hw' w hw hle).symm

/-- The words in front of a stream are found again, as far as the stream contains words. -/
theorem prefix_of_flatten (h : PrefixCode words) (hws : ∀ w ∈ ws, w ∈ words)
    (hws' : ∀ w ∈ ws', w ∈ words) (hrest' : ∀ w ∈ words, ¬ w <+: rest')
    (hstream : ws.flatten ++ rest = ws'.flatten ++ rest') : ws <+: ws' := by
  induction ws generalizing ws' with
  | nil => exact List.nil_prefix
  | cons w ws ih =>
      have hw := hws w List.mem_cons_self
      cases ws' with
      | nil =>
          -- the rest would begin with a word
          refine absurd ?_ (hrest' w hw)
          rw [List.flatten_nil, List.nil_append] at hstream
          rw [← hstream, List.flatten_cons, List.append_assoc]
          exact List.prefix_append _ _
      | cons w' ws' =>
          rw [List.flatten_cons, List.flatten_cons, List.append_assoc, List.append_assoc]
            at hstream
          obtain rfl : w = w' := h.eq_of_append hw (hws' w' List.mem_cons_self) hstream
          refine List.cons_prefix_cons.mpr ⟨rfl, ih ?_ ?_ (List.append_cancel_left hstream)⟩
          · exact fun v hv => hws v (List.mem_cons_of_mem _ hv)
          · exact fun v hv => hws' v (List.mem_cons_of_mem _ hv)

/-- Nothing at all is a rest. -/
theorem not_prefix_nil (h : PrefixCode words) : ∀ w ∈ words, ¬ w <+: [] :=
  fun w hw hle => h.nonempty w hw (List.prefix_nil.mp hle)

/-- Distinct sequences of words are distinct streams. -/
theorem uniquelyDecodable (h : PrefixCode words) : UniquelyDecodable words := by
  intro ws ws' hws hws' hstream
  have hle : ws <+: ws' :=
    h.prefix_of_flatten hws hws' h.not_prefix_nil (congrArg (· ++ []) hstream)
  have hge : ws' <+: ws :=
    h.prefix_of_flatten hws' hws h.not_prefix_nil (congrArg (· ++ []) hstream.symm)
  exact hle.eq_of_length_le hge.length_le

end PrefixCode

namespace Parses

/-- When more of a stream arrives, the words that have been found remain. -/
theorem prefix_of_append (h : Parses words stream ws rest) (hcode : PrefixCode words)
    (h' : Parses words (stream ++ more) ws' rest') : ws <+: ws' := by
  have hstream : ws.flatten ++ (rest ++ more) = ws'.flatten ++ rest' := by
    rw [← h'.stream_eq, h.stream_eq, List.append_assoc]
  exact hcode.prefix_of_flatten h.mem h'.mem h'.unfinished hstream

end Parses

end Library
end WallyIo
