import KafkaManager.Api.Topics

/-!
# Paging through the topics

`Service.List` cuts its pages to a size between 1 and 200, and the reply repeats
the size it was asked for. A client that goes by the reply's numbers is done as
soon as these say so. So it gets all topics if and only if it asks for enough
pages, of 200 topics at most, and with a size that is not positive it never
ends.
-/

namespace KafkaManager.Topic

open Lib Api

/-- What a cluster lists. A slice has fewer than 2^63 bytes, and a topic takes
more than 2^6 of them. -/
structure ClusterTopics where
  topics : List Topic
  distinct : (topics.map Topic.name).Nodup
  fits : topics.length < 2 ^ 57

section

variable {toLower : Char → Char} {sorter : Sorter nameLess} {items : List Topic} {search : String}

/-- The topics that are looked for. -/
def searched (toLower : Char → Char) (search : String) (items : List Topic) : List Topic :=
  items.filter (found toLower (lower toLower (trimSpace search)))

theorem filtered_perm : (filtered toLower sorter search items).Perm
    (searched toLower search items) :=
  sorter.perm _

theorem filtered_length :
    (filtered toLower sorter search items).length = (searched toLower search items).length :=
  filtered_perm.length_eq

theorem searched_length : (searched toLower search items).length ≤ items.length :=
  List.length_filter_le _ _

theorem clampSize_range (pageSize : Int) : 1 ≤ clampSize pageSize ∧ clampSize pageSize ≤ 200 := by
  unfold clampSize
  dsimp only
  split
  · omega
  · simp only [gt_iff_lt]
    split
    · omega
    · omega

theorem clampSize_positive {n : Nat} (hn : 1 ≤ n) : clampSize n = (min n 200 : Nat) := by
  unfold clampSize
  dsimp only
  rw [if_neg (show ¬ (n : Int) < 1 by omega)]
  split
  · omega
  · omega

/-- The reply of a page that begins early enough to have a first index. -/
theorem list_listed (hitems : items.length < 2 ^ 57) {page : Nat} (hpage : 1 ≤ page)
    {pageSize : Int} {size : Nat} (hsize : clampSize pageSize = size)
    (hstart : (page - 1) * size < 2 ^ 62) :
    list toLower sorter (.ok items) search page pageSize =
      .listed (((filtered toLower sorter search items).drop ((page - 1) * size)).take size)
        (filtered toLower sorter search items).length := by
  have hrange := clampSize_range pageSize
  have hlength : (filtered toLower sorter search items).length < 2 ^ 57 := by
    rw [filtered_length]
    exact Nat.lt_of_le_of_lt searched_length hitems
  obtain ⟨xs, hxs⟩ : ∃ xs, xs = filtered toLower sorter search items := ⟨_, rfl⟩
  obtain ⟨start, hstart'⟩ : ∃ start, start = (page - 1) * size := ⟨_, rfl⟩
  have hbefore : page - 1 ≤ (page - 1) * size := Nat.le_mul_of_pos_right _ (by omega)
  have hpage' : clampPage page = page := by
    unfold clampPage
    rw [if_neg (by omega)]
  have hfirst : wrap64 (wrap64 ((page : Int) - 1) * size) = start := by
    rw [wrap64_fits (n := (page : Int) - 1) (by omega) (by omega),
      show (page : Int) - 1 = (page - 1 : Nat) by omega, ← Int.natCast_mul, ← hstart']
    exact wrap64_fits (by omega) (by omega)
  have hlast : wrap64 ((start : Int) + size) = (start + size : Nat) := by
    rw [wrap64_fits (by omega) (by omega)]
    omega
  rw [← hxs] at hlength ⊢
  rw [← hstart'] at hstart ⊢
  simp only [list, hpage', hsize, hfirst, hlast, ← hxs]
  clear hfirst hlast
  split
  · next hafter => rw [List.drop_of_length_le (by omega), List.take_nil]
  · next hinside =>
      have hstop : (if ((start + size : Nat) : Int) > xs.length then (xs.length : Int)
          else (start + size : Nat)) = (min (start + size) xs.length : Nat) := by
        split
        · omega
        · omega
      rw [hstop, slice, if_pos (by omega)]
      dsimp only
      rw [Int.toNat_natCast, Int.toNat_natCast, List.drop_take]
      have htake : ((xs.drop start).take (min (start + size) xs.length - start)) =
          (xs.drop start).take size := by
        rw [List.take_eq_take_iff, List.length_drop]
        omega
      rw [htake]

/-- Whatever the page, the total is of all. -/
theorem list_total {page pageSize : Int} {items' : List Topic} {total : Nat}
    (h : list toLower sorter (.ok items) search page pageSize = .listed items' total) :
    total = (searched toLower search items).length := by
  have hlength : (filtered toLower sorter search items).length =
      (searched toLower search items).length := filtered_length
  rw [← hlength]
  unfold list at h
  dsimp only at h
  split at h
  · exact (Listing.listed.inj h).2.symm
  · split at h
    · cases h
    · exact (Listing.listed.inj h).2.symm

end

/-! ## A client -/

/-- A client that asks for one page after the other, and stops as soon as the
numbers of a reply say that it has them all. -/
def browse (reply : Nat → TopicsReply) : Nat → Nat → Option (List Topic)
  | 0, _ => none
  | fuel + 1, page =>
      match reply page with
      | .error .. | .panicked => none
      | .page items total page' pageSize =>
          if page' * pageSize ≥ total then some items
          else (browse reply fuel (page + 1)).map (items ++ ·)

/-- The parameters of its requests. -/
def pageParams (search pageSize : String) (page : Nat) : Params := fun name =>
  if name = "search" then search
  else if name = "page" then String.ofList (formatInt page)
  else if name = "pageSize" then pageSize
  else ""

/-- The page size of the replies. -/
def echoedSize (pageSize : String) : Int := intQuery (pageParams "" pageSize 1) "pageSize" 50

/-- The client comes to an end, and has received every topic that is looked for
once. -/
def PagesReach (toLower : Char → Char) (sorter : Sorter nameLess) (t : ClusterTopics)
    (search pageSize : String) : Prop :=
  ∃ fuel items,
    browse (fun page => listTopics toLower sorter (.ok (.ok t.topics))
      (pageParams search pageSize page)) fuel 1 = some items ∧
    items.Perm (searched toLower search t.topics)

/-- So many pages of 200 topics are enough. -/
def PagesCover (total : Nat) (size : Int) : Prop :=
  1 ≤ size ∧ total ≤ 200 * ((total + size.toNat - 1) / size.toNat) ∨ size = 0 ∧ total = 0

theorem isSpace_digit {c : Char} (h : c.isDigit = true) : isSpace c = false := by
  simp only [Char.isDigit, Bool.and_eq_true, decide_eq_true_eq, UInt32.le_iff_toNat_le] at h
  obtain ⟨hlow, hhigh⟩ := h
  have hlow' : 48 ≤ c.toNat := hlow
  have hhigh' : c.toNat ≤ 57 := hhigh
  simp only [isSpace, Bool.or_eq_false_iff, Bool.and_eq_false_iff, decide_eq_false_iff_not,
    beq_eq_false_iff_ne]
  omega

theorem intQuery_page (search pageSize : String) {page : Nat} (hpage : 1 ≤ page) :
    intQuery (pageParams search pageSize page) "page" 1 =
      if fits64 page then (page : Int) else 1 := by
  have hvalue : pageParams search pageSize page "page" = String.ofList (formatInt page) := rfl
  have hdigits : formatInt page = Nat.toDigits 10 page := by
    unfold formatInt
    rw [if_neg (by omega), Int.natAbs_natCast]
  have htrim : trimSpace (String.ofList (formatInt page)) = String.ofList (formatInt page) := by
    refine trimSpace_plain fun c hc => ?_
    rw [String.toList_ofList, hdigits] at hc
    exact isSpace_digit (List.all_eq_true.1 (toDigits_digit page) c hc)
  have hne : String.ofList (formatInt page) ≠ "" := by
    intro heq
    have hnil := congrArg String.toList heq
    rw [String.toList_ofList, hdigits] at hnil
    exact Nat.toDigits_ne_nil hnil
  simp only [intQuery, hvalue, htrim, if_neg hne, String.toList_ofList]
  rw [parseInt, parseSigned_formatInt, Option.filter_some]
  split
  · rfl
  · rfl

theorem intQuery_size (search pageSize : String) (page : Nat) :
    intQuery (pageParams search pageSize page) "pageSize" 50 = echoedSize pageSize := rfl

section

variable {toLower : Char → Char} {sorter : Sorter nameLess} {t : ClusterTopics}
  {search pageSize : String}

/-- What the client can see of a reply. -/
theorem listTopics_echo {page : Nat} (hpage : 1 ≤ page) {items : List Topic} {total : Nat}
    {page' size : Int}
    (h : listTopics toLower sorter (.ok (.ok t.topics)) (pageParams search pageSize page) =
      .page items total page' size) :
    total = (searched toLower search t.topics).length ∧ 1 ≤ page' ∧ size = echoedSize pageSize := by
  simp only [listTopics] at h
  split at h
  · cases h
  · cases h
  · next hlisted =>
      obtain ⟨rfl, rfl, rfl, rfl⟩ := TopicsReply.page.inj h
      refine ⟨list_total hlisted, ?_, rfl⟩
      rw [intQuery_page search pageSize hpage]
      split
      · omega
      · omega

/-- With a size that is not positive it goes on for ever. -/
theorem browse_endless {size : Int} (hsize : echoedSize pageSize = size)
    (hneg : size < 0 ∨ size = 0 ∧ 0 < (searched toLower search t.topics).length) (fuel : Nat)
    {page : Nat} (hpage : 1 ≤ page) :
    browse (fun page => listTopics toLower sorter (.ok (.ok t.topics))
      (pageParams search pageSize page)) fuel page = none := by
  induction fuel generalizing page with
  | zero => rfl
  | succ fuel ih =>
      rw [browse]
      split
      · rfl
      · rfl
      · next items total page' size' hreply =>
          obtain ⟨rfl, hpage', rfl⟩ := listTopics_echo hpage hreply
          rw [ih (by omega), if_neg]
          · rfl
          · rw [hsize]
            rcases hneg with hneg | ⟨rfl, hpos⟩
            · have hle : page' * size ≤ 1 * size :=
                Int.mul_le_mul_of_nonpos_right hpage' (by omega)
              omega
            · omega

/-- The reply of a page that the client still asks for. -/
theorem listTopics_page {n : Nat} (hsize : echoedSize pageSize = n) (hn : 1 ≤ n) {page : Nat}
    (hpage : 1 ≤ page)
    (hmore : page = 1 ∨ (page - 1) * n < (searched toLower search t.topics).length) :
    listTopics toLower sorter (.ok (.ok t.topics)) (pageParams search pageSize page) =
      .page (((filtered toLower sorter search t.topics).drop ((page - 1) * min n 200)).take
        (min n 200)) (searched toLower search t.topics).length page n := by
  have hfits := t.fits
  have hlength : (searched toLower search t.topics).length ≤ t.topics.length := searched_length
  have hstart : (page - 1) * min n 200 ≤ (page - 1) * n := Nat.mul_le_mul_left _ (by omega)
  have hsmall : page - 1 ≤ (page - 1) * n := Nat.le_mul_of_pos_right _ (by omega)
  have hearly : (page - 1) * n < 2 ^ 57 := by
    rcases hmore with rfl | hmore
    · simp
    · omega
  have hpage' : intQuery (pageParams search pageSize page) "page" 1 = page := by
    rw [intQuery_page search pageSize hpage, if_pos]
    simp only [fits64, decide_eq_true_eq]
    omega
  simp only [listTopics, hpage', intQuery_size, hsize]
  rw [show pageParams search pageSize page "search" = search from rfl,
    list_listed hfits hpage (clampSize_positive hn) (by omega), filtered_length]

theorem asked_first {page more n total : Nat} (hpage : 1 ≤ page)
    (hmore : ∀ k, page ≤ k + 1 → k < page + more → k = 0 ∨ k * n < total) :
    page = 1 ∨ (page - 1) * n < total := by
  rcases hmore (page - 1) (by omega) (by omega) with hfirst | hless
  · exact .inl (by omega)
  · exact .inr hless

/-- From a page on the client receives what is there up to the last one. -/
theorem browse_pages (sorter : Sorter nameLess) {n : Nat} (hsize : echoedSize pageSize = n)
    (hn : 1 ≤ n) (more : Nat) {page : Nat} (hpage : 1 ≤ page)
    (hmore : ∀ k, page ≤ k + 1 → k < page + more →
      k = 0 ∨ k * n < (searched toLower search t.topics).length)
    (hlast : (searched toLower search t.topics).length ≤ (page + more) * n) (fuel : Nat) :
    browse (fun page => listTopics toLower sorter (.ok (.ok t.topics))
        (pageParams search pageSize page)) fuel page =
      if fuel ≤ more then none
      else
        some (((filtered toLower sorter search t.topics).drop ((page - 1) * min n 200)).take
          ((more + 1) * min n 200)) := by
  induction more generalizing page fuel with
  | zero =>
      cases fuel with
      | zero => rfl
      | succ fuel =>
          have hstop : (page : Int) * n ≥ (searched toLower search t.topics).length := by
            rw [← Int.natCast_mul]
            exact Int.ofNat_le.2 hlast
          rw [browse, listTopics_page hsize hn hpage (asked_first hpage hmore)]
          simp only [if_pos hstop, Nat.zero_add, Nat.one_mul]
          rw [if_neg (by omega)]
  | succ more ih =>
      cases fuel with
      | zero => rfl
      | succ fuel =>
          have hnext : ¬ (page : Int) * n ≥ (searched toLower search t.topics).length := by
            have hless := (hmore page (by omega) (by omega)).resolve_left (by omega)
            rw [← Int.natCast_mul]
            omega
          have hrest := ih (show 1 ≤ page + 1 by omega)
            (fun k hk hk' => hmore k (by omega) (by omega)) (by
              rw [show page + 1 + more = page + (more + 1) by omega]
              exact hlast) fuel
          rw [browse, listTopics_page hsize hn hpage (asked_first hpage hmore)]
          simp only [if_neg hnext, hrest]
          rcases Nat.lt_or_ge more fuel with hlt | hge
          · rw [if_neg (by omega), if_neg (by omega), Option.map_some, Nat.add_sub_cancel,
              Option.some.injEq]
            have hsplit : (more + 1 + 1) * min n 200 = min n 200 + (more + 1) * min n 200 := by
              rw [Nat.add_mul (more + 1), Nat.one_mul, Nat.add_comm]
            have hdrop : (page - 1) * min n 200 + min n 200 = page * min n 200 := by
              rw [← Nat.succ_mul, Nat.succ_eq_add_one, Nat.sub_add_cancel hpage]
            rw [hsplit, List.take_add, List.drop_drop, hdrop]
          · rw [if_pos hge, if_pos (by omega), Option.map_none]

/-- How many pages a client asks for after the first. -/
theorem last_page (total : Nat) {n : Nat} (hn : 1 ≤ n) :
    ∃ more, (∀ k, 1 ≤ k + 1 → k < 1 + more → k = 0 ∨ k * n < total) ∧ total ≤ (1 + more) * n ∧
      (total ≤ (more + 1) * min n 200 ↔ total ≤ 200 * ((total + n - 1) / n)) := by
  obtain ⟨c, hc⟩ : ∃ c, c = (total + n - 1) / n := ⟨_, rfl⟩
  have hsplit := Nat.div_add_mod (total + n - 1) n
  have hrest := Nat.mod_lt (total + n - 1) (show n > 0 by omega)
  rw [← hc] at hsplit ⊢
  rw [Nat.mul_comm n c] at hsplit
  cases c with
  | zero =>
      refine ⟨0, fun k _ hk => .inl (by omega), by omega, ?_⟩
      omega
  | succ c =>
      refine ⟨c, fun k _ hk => .inr ?_, ?_, ?_⟩
      · have hle : (k + 1) * n ≤ (c + 1) * n := Nat.mul_le_mul_right n (by omega)
        rw [Nat.add_mul, Nat.one_mul] at hle
        omega
      · rw [Nat.add_comm 1 c]
        omega
      · rcases Nat.le_total n 200 with hsmall | hlarge
        · have hle : (c + 1) * n ≤ (c + 1) * 200 := Nat.mul_le_mul_left _ hsmall
          rw [Nat.min_eq_left hsmall]
          omega
        · rw [Nat.min_eq_right hlarge, Nat.mul_comm]

theorem browse_empty (hsize : echoedSize pageSize = 0)
    (hnone : (searched toLower search t.topics).length = 0) :
    browse (fun page => listTopics toLower sorter (.ok (.ok t.topics))
      (pageParams search pageSize page)) 1 1 = some [] := by
  have hfirst : list toLower sorter (.ok t.topics) search (1 : Nat) 0 =
      .listed [] (searched toLower search t.topics).length := by
    rw [list_listed t.fits (Nat.le_refl 1) (show clampSize 0 = (20 : Nat) from rfl) (by simp),
      filtered_length]
    congr 1
    rw [List.take_eq_nil_iff, List.drop_eq_nil_iff, filtered_length]
    omega
  rw [browse]
  simp only [listTopics, intQuery_size, hsize, intQuery_page search pageSize (Nat.le_refl 1)]
  rw [show pageParams search pageSize 1 "search" = search from rfl]
  simp only [show (if fits64 ((1 : Nat) : Int) then ((1 : Nat) : Int) else 1) = (1 : Nat) from rfl,
    hfirst, hnone]
  rfl

end

/-- A client that goes by the numbers of the replies receives every topic once
if and only if so many pages of 200 cover them. -/
theorem pages_reach (toLower : Char → Char) (sorter : Sorter nameLess) (t : ClusterTopics)
    (search pageSize : String) : PagesReach toLower sorter t search pageSize ↔
      PagesCover (searched toLower search t.topics).length (echoedSize pageSize) := by
  rcases Int.lt_trichotomy (echoedSize pageSize) 0 with hneg | hzero | hpos
  · constructor
    · rintro ⟨fuel, items, hbrowse, -⟩
      rw [browse_endless rfl (.inl hneg) fuel (Nat.le_refl 1)] at hbrowse
      cases hbrowse
    · rintro (⟨hpos, -⟩ | ⟨hzero, -⟩)
      · omega
      · omega
  · constructor
    · rintro ⟨fuel, items, hbrowse, -⟩
      rcases Nat.eq_zero_or_pos (searched toLower search t.topics).length with hnone | hsome
      · exact .inr ⟨hzero, hnone⟩
      · rw [browse_endless rfl (.inr ⟨hzero, hsome⟩) fuel (Nat.le_refl 1)] at hbrowse
        cases hbrowse
    · rintro (⟨hpos, -⟩ | ⟨-, hnone⟩)
      · omega
      · refine ⟨1, [], browse_empty hzero hnone, ?_⟩
        rw [List.eq_nil_of_length_eq_zero hnone]
  · obtain ⟨n, hn⟩ := Int.eq_ofNat_of_zero_le (show 0 ≤ echoedSize pageSize by omega)
    obtain ⟨more, hmore, hlast, hcover⟩ :=
      last_page (searched toLower search t.topics).length (show 1 ≤ n by omega)
    have hbrowse := browse_pages sorter hn (by omega) more (Nat.le_refl 1) hmore hlast
    have hcover' : PagesCover (searched toLower search t.topics).length (echoedSize pageSize) ↔
        (searched toLower search t.topics).length ≤ (more + 1) * min n 200 := by
      rw [hcover, PagesCover, hn, Int.toNat_natCast]
      constructor
      · rintro (⟨-, hle⟩ | ⟨hzero, -⟩)
        · exact hle
        · omega
      · exact fun hle => .inl ⟨by omega, hle⟩
    rw [hcover']
    constructor
    · rintro ⟨fuel, items, hitems, hperm⟩
      rw [hbrowse] at hitems
      split at hitems
      · cases hitems
      · rw [← Option.some.inj hitems] at hperm
        have hlength := hperm.length_eq
        rw [List.length_take] at hlength
        omega
    · intro hle
      refine ⟨more + 1, _, (hbrowse _).trans (if_neg (by omega)), ?_⟩
      rw [Nat.sub_self, Nat.zero_mul, List.drop_zero,
        List.take_of_length_le (by rw [filtered_length]; exact hle)]
      exact filtered_perm

/-! ## A size above 200 -/

def nameSorter : Sorter nameLess :=
  .stable nameLess
    (by
      intro a b c hab hbc
      simp only [nameLess, decide_eq_false_iff_not, String.not_lt] at hab hbc ⊢
      exact String.le_trans hab hbc)
    (by
      intro a b
      simp only [nameLess, decide_eq_false_iff_not, String.not_lt]
      exact String.le_total _ _)

/-- A topic of one partition. -/
def named (name : String) : Topic :=
  { name := name, internal := false, partitionCount := 1, replicationFactor := 1
    underReplicated := 0, partitions := [] }

/-- a, aa and so on, 201 of them -/
def manyTopics : ClusterTopics where
  topics := (List.range 201).map fun i => named (String.ofList (List.replicate (i + 1) 'a'))
  distinct := by
    rw [List.map_map]
    refine List.Nodup.map_on (fun i _ j _ h => ?_) List.nodup_range
    have hlength := congrArg List.length (String.ofList_injective h)
    rw [List.length_replicate, List.length_replicate] at hlength
    omega
  fits := by
    rw [List.length_map, List.length_range]
    decide

/-- With a page size of 300 the first page has 200 of them and is the last. -/
theorem page_missed : ¬ PagesReach Char.toLower nameSorter manyTopics "" "300" := by
  rintro ⟨fuel, items, hbrowse, hperm⟩
  have hall : searched Char.toLower "" manyTopics.topics = manyTopics.topics :=
    List.filter_eq_self.2 fun _ _ => rfl
  have hcount : (searched Char.toLower "" manyTopics.topics).length = 201 := by
    rw [hall, manyTopics, List.length_map, List.length_range]
  rw [browse_pages nameSorter (n := 300) (by decide +kernel) (by omega) 0 (Nat.le_refl 1)
    (fun k _ hk => .inl (by omega)) (by omega)] at hbrowse
  split at hbrowse
  · cases hbrowse
  · rw [← Option.some.inj hbrowse] at hperm
    have hlength := hperm.length_eq
    rw [List.length_take, hcount] at hlength
    omega

end KafkaManager.Topic
