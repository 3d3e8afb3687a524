import Mathlib.Data.List.Basic
import Mathlib.Data.List.TakeDrop

/-! Texts as lists of characters: parts joined by a separator, of which the last is read back when
it does not contain the separator, and `String.replace` where the text to replace is one
character. -/

namespace ChainMonitor.ProofKit

/-! ### Joined parts -/

section Joined

variable {α : Type*} {sep : α} {front front' last last' : List α}

theorem takeWhile_ne_append_cons [DecidableEq α] (h : sep ∉ last) (rest : List α) :
    (last ++ sep :: rest).takeWhile (· ≠ sep) = last := by
  rw [List.takeWhile_append_of_pos]
  · simp
  · intro a ha
    exact decide_eq_true fun heq : a = sep => h (heq ▸ ha)

/-- What follows the last separator, and what comes before it. -/
theorem append_cons_inj_last (h : sep ∉ last) (h' : sep ∉ last')
    (heq : front ++ sep :: last = front' ++ sep :: last') : front = front' ∧ last = last' := by
  classical
  have hrev := congrArg List.reverse heq
  simp only [List.reverse_append, List.reverse_cons, List.append_assoc,
    List.singleton_append] at hrev
  have hlast : last.reverse = last'.reverse := by
    rw [← takeWhile_ne_append_cons (mt List.mem_reverse.mp h) front.reverse, hrev,
      takeWhile_ne_append_cons (mt List.mem_reverse.mp h') front'.reverse]
  have hlast' := List.reverse_inj.mp hlast
  subst hlast'
  exact ⟨(List.append_left_inj _).mp heq, rfl⟩

/-- The same for two texts. -/
theorem String.joined_inj {sep : Char} {front front' last last' : String}
    (h : sep ∉ last.toList) (h' : sep ∉ last'.toList)
    (heq : front ++ String.singleton sep ++ last = front' ++ String.singleton sep ++ last') :
    front = front' ∧ last = last' := by
  have hlist := congrArg String.toList heq
  simp only [String.toList_append, String.toList_singleton, List.append_assoc,
    List.singleton_append] at hlist
  obtain ⟨hfront, hlast⟩ := append_cons_inj_last h h' hlist
  exact ⟨String.toList_injective hfront, String.toList_injective hlast⟩

end Joined

/-! ### Replacement of one character -/

namespace Replace

open String.Slice String.Slice.Pattern String.Slice.Pattern.Model

/-- The characters with `r` in the place of each `c`. -/
def replaceChar (c : Char) (r cs : List Char) : List Char :=
  cs.flatMap fun d => if d = c then r else [d]

theorem replaceChar_cons (c : Char) (r : List Char) (d : Char) (cs : List Char) :
    replaceChar c r (d :: cs) = (if d = c then r else [d]) ++ replaceChar c r cs :=
  List.flatMap_cons

theorem replaceChar_append (c : Char) (r cs ds : List Char) :
    replaceChar c r (cs ++ ds) = replaceChar c r cs ++ replaceChar c r ds :=
  List.flatMap_append

variable {s : String.Slice} {c : Char} {r : String} {start stop : s.Pos}

/-- What is replaced from a position on. -/
def replaceFrom (c : Char) (r : String) (start : s.Pos) : List Char :=
  replaceChar c r.toList (s.sliceFrom start).copy.toList

theorem matchesAt_of_get {h : start ≠ s.endPos} (hc : start.get h = c) :
    MatchesAt (String.singleton c) start :=
  ForwardStringSearcher.matchesAt_iff_splits.mpr ⟨_, _, hc ▸ start.splits_next_right h⟩

theorem replaceFrom_next (h : start ≠ s.endPos) :
    replaceFrom c r start =
      (if start.get h = c then r.toList else [start.get h]) ++ replaceFrom c r (start.next h) := by
  rw [replaceFrom, (start.splits_next_right h).copy_sliceFrom_eq, String.toList_append,
    String.toList_singleton, List.singleton_append, replaceChar_cons]
  rfl

theorem replaceFrom_matched (h : IsLongestMatchAt (String.singleton c) start stop) :
    replaceFrom c r start = r.toList ++ replaceFrom c r stop := by
  obtain ⟨before, after, hstart, hstop⟩ := ForwardStringSearcher.isLongestMatchAt_iff_splits.mp h
  rw [replaceFrom, replaceFrom, hstart.copy_sliceFrom_eq, hstop.copy_sliceFrom_eq,
    String.toList_append, String.toList_singleton, List.singleton_append, replaceChar_cons,
    if_pos rfl]

theorem replaceFrom_rejected (hle : start ≤ stop)
    (h : ∀ p, start ≤ p → p < stop → ¬MatchesAt (String.singleton c) p) :
    replaceFrom c r start = (s.slice start stop hle).copy.toList ++ replaceFrom c r stop := by
  induction start using WellFounded.induction Pos.wellFounded_gt with
  | h start ih =>
    rcases Std.le_iff_lt_or_eq.mp hle with hlt | rfl
    · have hend := Pos.ne_endPos_of_lt hlt
      have hnext := ih (start.next hend) Pos.lt_next (Pos.next_le_iff_lt.mpr hlt) fun p hp =>
        h p (Std.le_trans (Std.le_of_lt Pos.lt_next) hp)
      have hget : start.get hend ≠ c := fun hc => h start (Std.le_refl _) hlt (matchesAt_of_get hc)
      rw [replaceFrom_next hend, if_neg hget, hnext, copy_slice_eq_append_of_lt hlt]
      simp
    · simp

theorem foldl_steps {steps : List (SearchStep s)}
    (h : IsValidSearchFrom (String.singleton c) start steps) (sofar : String) :
    (steps.foldl (fun
      | sofar, .matched .. => sofar ++ String.toSlice r
      | sofar, .rejected start stop => sofar ++ s.slice! start stop) sofar).toList =
      sofar.toList ++ replaceFrom c r start := by
  induction h generalizing sofar with
  | endPos => simp [replaceFrom, replaceChar]
  | matched hmatch _ ih =>
    rw [List.foldl_cons, ih, replaceFrom_matched hmatch]
    simp
  | mismatched hlt hrejected _ ih =>
    rw [List.foldl_cons, ih, replaceFrom_rejected (Std.le_of_lt hlt) hrejected, slice_eq_slice!]
    simp

theorem toList_replace (text : String) (c : Char) (r : String) :
    (text.replace (String.singleton c) r).toList = replaceChar c r.toList text.toList := by
  have hsingle : String.singleton c ≠ "" := by simp
  have hvalid : IsValidSearchFrom (String.singleton c) text.toSlice.startPos
      (ToForwardSearcher.toSearcher (String.singleton c) text.toSlice).toList :=
    (ForwardStringSearcher.lawfulToForwardSearcherModel hsingle).isValidSearchFrom_toList _
  rw [String.replace, String.Slice.replace, ← Std.Iter.foldl_toList]
  refine (foldl_steps hvalid "").trans ?_
  simp [replaceFrom]

end Replace

end ChainMonitor.ProofKit
