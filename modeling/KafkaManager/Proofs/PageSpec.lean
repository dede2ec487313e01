import KafkaManager.Proofs.TopicLookup

/-!
# A page of topics and where it begins

A page is a stretch of the sorted topics, and its ends are products that have no
bound. `Service.List` computes them with 64 bits. So its reply is that page if
and only if the beginning does not wrap, or wraps to a place that is behind the
last topic as well. Pages that are asked for one after the other are always
right up to the last topic.
-/

namespace KafkaManager.Topic

open Lib

/-- The positions from `(p - 1) * s` to before `p * s`, so far as there are any. -/
def pageOf {α : Type} (sorted : List α) (p s : Int) : List α :=
  (sorted.take (p * s).toNat).drop ((p - 1) * s).toNat

/-- The lowered name contains the lowered search. -/
def Contains (toLower : Char → Char) (search : String) (item : Topic) : Prop :=
  lower toLower (trimSpace search) <:+: lower toLower item.name

instance (toLower : Char → Char) (search : String) : DecidablePred (Contains toLower search) :=
  fun _ => inferInstanceAs (Decidable (_ <:+: _))

/-- These are the topics with the search in their name, by name. -/
structure SortedMatches (toLower : Char → Char) (search : String) (items sorted : List Topic) :
    Prop where
  perm : sorted.Perm (items.filter fun item => decide (Contains toLower search item))
  ordered : sorted.Pairwise fun a b => a.name < b.name

/-- The reply is the page of the sorted topics, and their number. -/
def RepliesPage (toLower : Char → Char) (sorter : Sorter nameLess) (t : ClusterTopics)
    (search : String) (page pageSize : Int) : Prop :=
  ∃ sorted, SortedMatches toLower search t.topics sorted ∧
    list toLower sorter (.ok t.topics) search page pageSize =
      .listed (pageOf sorted (clampPage page) (clampSize pageSize)) sorted.length

/-- How many topics have the search in their name. -/
def matching (toLower : Char → Char) (search : String) (t : ClusterTopics) : Nat :=
  t.topics.countP fun item => decide (Contains toLower search item)

/-- The place of the first topic of a page. -/
def pageStart (page pageSize : Int) : Int := (clampPage page - 1) * clampSize pageSize

/-- The topics of a reply. -/
def Listing.items : Listing → List Topic
  | .failed _ | .panicked => []
  | .listed items _ => items

theorem clampPage_positive (page : Int) : 1 ≤ clampPage page := by
  unfold clampPage
  split
  · omega
  · omega

theorem pageStart_nonneg (page pageSize : Int) : 0 ≤ pageStart page pageSize := by
  have hpage := clampPage_positive page
  have hsize := clampSize_range pageSize
  exact Int.mul_nonneg (by omega) (by omega)

/-- A page ends where the next one begins. -/
theorem pageStart_add (page pageSize : Int) :
    pageStart page pageSize + clampSize pageSize = clampPage page * clampSize pageSize := by
  rw [pageStart, Int.sub_mul, Int.one_mul, Int.sub_add_cancel]

/-- The product is that of the numbers before they wrapped. -/
theorem wrap64_start (page pageSize : Int) :
    wrap64 (wrap64 (clampPage page - 1) * clampSize pageSize) = wrap64 (pageStart page pageSize) := by
  rw [wrap64, wrap64, Int.bmod_mul_bmod, wrap64, pageStart]

theorem slice_ne_nil {α : Type} {xs : List α} {start stop : Int} (h : start < stop) :
    slice xs start stop ≠ some [] := by
  unfold slice
  split
  · next hrange =>
      intro hnil
      have hlength := congrArg List.length (Option.some.inj hnil)
      rw [List.length_drop, List.length_take, List.length_nil] at hlength
      omega
  · simp

/-- One page after the other is the list up to there. -/
theorem flatMap_pageOf {α : Type} (xs : List α) (size n : Nat) :
    ((List.range n).flatMap fun k : Nat => pageOf xs (k + 1 : Nat) size) = xs.take (n * size) := by
  induction n with
  | zero => simp
  | succ n ih =>
      have hpage : pageOf xs (n + 1 : Nat) size = (xs.take ((n + 1) * size)).drop (n * size) := by
        rw [pageOf, show ((n + 1 : Nat) : Int) - 1 = n by omega, ← Int.natCast_mul,
          ← Int.natCast_mul, Int.toNat_natCast, Int.toNat_natCast]
      have hbefore : n * size ≤ (n + 1) * size := Nat.mul_le_mul_right size (by omega)
      rw [List.range_succ, List.flatMap_append, ih, List.flatMap_singleton, hpage]
      conv_rhs => rw [← List.take_append_drop (n * size) (xs.take ((n + 1) * size)),
        List.take_take, Nat.min_eq_left hbefore]

theorem found_eq (toLower : Char → Char) (search : String) (item : Topic) :
    found toLower (lower toLower (trimSpace search)) item = decide (Contains toLower search item) := by
  rw [Bool.eq_iff_iff, decide_eq_true_eq, Contains, found, Bool.or_eq_true]
  constructor
  · rintro (hempty | hcut)
    · rw [List.isEmpty_iff.1 hempty]
      exact List.nil_infix
    · obtain ⟨⟨before, after⟩, hcut⟩ := Option.isSome_iff_exists.1 hcut
      exact ⟨before, after, by rw [eq_of_cut hcut, List.append_assoc]⟩
  · exact fun hinfix => .inr ( cut_of_infix hinfix)

section

variable {toLower : Char → Char} {sorter : Sorter nameLess} {t : ClusterTopics} {search : String}

/-- Sorting loses nothing, and distinct names leave it no choice. -/
theorem filtered_sortedMatches (toLower : Char → Char) (sorter : Sorter nameLess)
    (t : ClusterTopics) (search : String) :
    SortedMatches toLower search t.topics (filtered toLower sorter search t.topics) := by
  have hperm : (filtered toLower sorter search t.topics).Perm
      (t.topics.filter fun item => decide (Contains toLower search item)) := by
    have hfound : (filtered toLower sorter search t.topics).Perm
      (searched toLower search t.topics) := filtered_perm
    rwa [searched, funext (found_eq toLower search)] at hfound
  exact ⟨hperm, (Web.filtered_ordered t).imp Web.nameLess_iff.1⟩

theorem SortedMatches.length {sorted : List Topic}
    (h : SortedMatches toLower search t.topics sorted) :
    sorted.length = matching toLower search t := by
  rw [h.perm.length_eq, matching, List.countP_eq_length_filter]

theorem matching_lt (toLower : Char → Char) (search : String) (t : ClusterTopics) :
    matching toLower search t < 2 ^ 57 :=
  Nat.lt_of_le_of_lt List.countP_le_length t.fits

/-- The reply to a page whose beginning does not wrap. -/
theorem list_pageOf {page pageSize : Int} (hstart : pageStart page pageSize < 2 ^ 63) :
    list toLower sorter (.ok t.topics) search page pageSize =
      .listed (pageOf (filtered toLower sorter search t.topics) (clampPage page)
        (clampSize pageSize)) (filtered toLower sorter search t.topics).length := by
  have hnonneg := pageStart_nonneg page pageSize
  have hsize := clampSize_range pageSize
  have hadd := pageStart_add page pageSize
  have hlength : (filtered toLower sorter search t.topics).length < 2 ^ 57 := by
    rw [(filtered_sortedMatches toLower sorter t search).length]
    exact matching_lt toLower search t
  have hfirst : wrap64 (pageStart page pageSize) = pageStart page pageSize :=
    wrap64_fits (by omega) hstart
  obtain ⟨xs, hxs⟩ : ∃ xs, xs = filtered toLower sorter search t.topics := ⟨_, rfl⟩
  rw [← hxs] at hlength ⊢
  simp only [list, wrap64_start, hfirst, ← hxs, pageOf]
  rw [← hadd, show (clampPage page - 1) * clampSize pageSize = pageStart page pageSize from rfl]
  generalize pageStart page pageSize = start at hstart hnonneg ⊢
  generalize clampSize pageSize = size at hsize ⊢
  split
  · next hafter => rw [List.drop_of_length_le (by rw [List.length_take]; omega)]
  · next hinside =>
      have hlast : wrap64 (start + size) = start + size := wrap64_fits (by omega) (by omega)
      have hstop : (if start + size > (xs.length : Int) then (xs.length : Int) else start + size) =
          min (start + size) xs.length := by
        split
        · omega
        · omega
      have htake : xs.take (min (start + size) xs.length).toNat = xs.take (start + size).toNat := by
        rw [List.take_eq_take_iff]
        omega
      rw [hlast, hstop, slice, if_pos (by omega), htake]

/-- What the sorted topics of a search are is not up to the sort. -/
theorem RepliesPage.listed {page pageSize : Int}
    (h : RepliesPage toLower sorter t search page pageSize) :
    ∃ items, list toLower sorter (.ok t.topics) search page pageSize =
        .listed items (matching toLower search t) ∧
      (matching toLower search t ≤ pageStart page pageSize → items = []) := by
  obtain ⟨sorted, hsorted, hlist⟩ := h
  have hlength := hsorted.length
  have hnonneg := pageStart_nonneg page pageSize
  rw [hlength] at hlist
  refine ⟨_, hlist, fun hafter => ?_⟩
  rw [pageOf, show (clampPage page - 1) * clampSize pageSize = pageStart page pageSize from rfl,
    List.drop_of_length_le (by rw [List.length_take]; omega)]

/-- A beginning that wraps is a place before the last topic, or one behind it. -/
theorem list_wrapped {page pageSize : Int} (hstart : 2 ^ 63 ≤ pageStart page pageSize) :
    RepliesPage toLower sorter t search page pageSize ↔
      matching toLower search t ≤ wrap64 (pageStart page pageSize) := by
  have hmatching := matching_lt toLower search t
  have hlength := (filtered_sortedMatches toLower sorter t search).length
  constructor
  · intro h
    obtain ⟨items, hlist, hnone⟩ := h.listed
    rw [hnone (by omega)] at hlist
    by_contra hbefore
    have hsize := clampSize_range pageSize
    have hrange := wrap64_range (pageStart page pageSize)
    simp only [list, wrap64_start, hlength] at hlist
    rw [if_neg (by omega)] at hlist
    generalize wrap64 (pageStart page pageSize) = start at hrange hbefore hlist
    rw [wrap64_fits (by omega) (by omega)] at hlist
    split at hlist
    · cases hlist
    · next hslice =>
        rw [(Listing.listed.inj hlist).1] at hslice
        refine slice_ne_nil ?_ hslice
        split
        · omega
        · omega
  · intro hafter
    refine ⟨_, filtered_sortedMatches toLower sorter t search, ?_⟩
    simp only [list, wrap64_start, hlength]
    rw [if_pos (by omega), pageOf,
      show (clampPage page - 1) * clampSize pageSize = pageStart page pageSize from rfl,
      List.drop_of_length_le (by rw [List.length_take]; omega)]

/-- The pages up to the last topic are the sorted topics. -/
theorem pages_sortedMatches {pageSize : Int} {n : Nat} (hstart : pageStart n pageSize < 2 ^ 63)
    (hlast : matching toLower search t ≤ n * clampSize pageSize) :
    SortedMatches toLower search t.topics ((List.range n).flatMap fun k : Nat =>
      (list toLower sorter (.ok t.topics) search (k + 1 : Nat) pageSize).items) := by
  obtain ⟨size, hsize⟩ := Int.eq_ofNat_of_zero_le (show 0 ≤ clampSize pageSize by
    have hrange := clampSize_range pageSize
    omega)
  have hsorted := filtered_sortedMatches toLower sorter t search
  have hpages : ∀ k ∈ List.range n,
      (list toLower sorter (.ok t.topics) search (k + 1 : Nat) pageSize).items =
        pageOf (filtered toLower sorter search t.topics) (k + 1 : Nat) size := by
    intro k hk
    have hbefore : k < n := List.mem_range.1 hk
    have hpage : ∀ m : Nat, 1 ≤ m → clampPage m = m := by
      intro m hm
      rw [clampPage, if_neg (by omega)]
    have hstart' : pageStart (k + 1 : Nat) pageSize < 2 ^ 63 := by
      refine Int.lt_of_le_of_lt ?_ hstart
      rw [pageStart, pageStart, hpage n (by omega), hpage (k + 1) (by omega), hsize]
      exact Int.mul_le_mul_of_nonneg_right (by omega) (by omega)
    rw [list_pageOf hstart', hsize, Listing.items, hpage (k + 1) (by omega)]
  rw [List.flatMap_congr hpages, flatMap_pageOf, List.take_of_length_le]
  · exact hsorted
  · rw [hsize, ← Int.natCast_mul] at hlast
    rw [hsorted.length]
    exact Int.ofNat_le.1 hlast

end

/-- A reply is the page that was asked for if and only if its beginning does not
wrap, or wraps to behind the last topic. The pages up to there are all topics
that are looked for, in order. -/
theorem list_repliesPage (toLower : Char → Char) (sorter : Sorter nameLess) (t : ClusterTopics)
    (search : String) (page pageSize : Int) :
    (RepliesPage toLower sorter t search page pageSize ↔
      pageStart page pageSize < 2 ^ 63 ∨
        matching toLower search t ≤ wrap64 (pageStart page pageSize)) ∧
    ∀ n : Nat, pageStart n pageSize < 2 ^ 63 → matching toLower search t ≤ n * clampSize pageSize →
      SortedMatches toLower search t.topics ((List.range n).flatMap fun k : Nat =>
        (list toLower sorter (.ok t.topics) search (k + 1 : Nat) pageSize).items) := by
  refine ⟨?_, fun n => pages_sortedMatches⟩
  rcases Int.lt_or_le (pageStart page pageSize) (2 ^ 63) with hsmall | hlarge
  · refine iff_of_true ⟨_, filtered_sortedMatches toLower sorter t search, ?_⟩ (.inl hsmall)
    exact list_pageOf hsmall
  · rw [list_wrapped hlarge, or_iff_right (Int.not_lt.2 hlarge)]

/-- A cluster with one topic. -/
def oneTopic : ClusterTopics where
  topics := [named "orders"]
  distinct := List.nodup_singleton _
  fits := Nat.one_lt_two_pow (by omega)

/-- The beginning of the page is before the first topic. -/
theorem page_negative : ¬ RepliesPage Char.toLower nameSorter oneTopic ""
    461168601842738792 20 := by
  rintro ⟨sorted, -, hlist⟩
  have hpanics : list Char.toLower nameSorter (.ok oneTopic.topics) "" 461168601842738792 20 =
      .panicked := by
    have hsorted : filtered Char.toLower nameSorter "" oneTopic.topics = oneTopic.topics :=
      List.mergeSort_singleton _
    simp only [list, hsorted]
    rfl
  rw [hpanics] at hlist
  cases hlist

end KafkaManager.Topic
