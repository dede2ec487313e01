import KafkaManager.Proofs.TopicPages
import KafkaManager.Web.Topics

/-!
# Whether a topic can be opened

The search for a name finds the topic of that name, and every other whose name
contains it. They are sorted by name, so the topic is on the page of the first
200 if and only if fewer than 200 of them come before it.
-/

namespace KafkaManager.Web

open Lib Api Topic

theorem nameLess_iff {a b : Topic} : nameLess a b = true ↔ a.name < b.name := decide_eq_true_iff

section

variable {toLower : Char → Char} {sorter : Sorter nameLess} {t : ClusterTopics} {name : String}

theorem nodup_filtered (toLower : Char → Char) (sorter : Sorter nameLess) (name : String)
    (t : ClusterTopics) :
    ((filtered toLower sorter name t.topics).map Topic.name).Nodup := by
  rw [(filtered_perm.map Topic.name).nodup_iff]
  exact t.distinct.sublist (List.filter_sublist.map _)

/-- With distinct names the order is strict. -/
theorem filtered_ordered (t : ClusterTopics) :
    (filtered toLower sorter name t.topics).Pairwise fun a b => nameLess a b = true := by
  have hdistinct := List.pairwise_map.1 (nodup_filtered toLower sorter name t)
  have hordered : (filtered toLower sorter name t.topics).Pairwise fun a b => nameLess b a = false :=
    sorter.ordered _
  refine (hordered.and hdistinct).imp fun {a b} h => ?_
  obtain ⟨hle, hne⟩ := h
  rw [nameLess, decide_eq_false_iff_not, String.not_lt] at hle
  rw [nameLess_iff]
  exact String.not_le.1 fun hge => hne (String.le_antisymm hle hge)

/-- A name contains itself, also when the search is trimmed. -/
theorem mem_searched {item : Topic} (hitem : item ∈ t.topics) (hname : item.name = name) :
    item ∈ searched toLower name t.topics := by
  refine List.mem_filter.2 ⟨hitem, ?_⟩
  have hinfix : lower toLower (trimSpace name) <:+: lower toLower item.name := by
    rw [hname]
    exact ( trimSpace_infix name).map toLower
  rw [found, cut_of_infix hinfix, Bool.or_true]

theorem topicParams_reply (t : ClusterTopics) (name : String) :
    listTopics toLower sorter (.ok (.ok t.topics)) (topicParams name) =
      .page ((filtered toLower sorter name t.topics).take 200)
        (filtered toLower sorter name t.topics).length 1 200 := by
  have hpage : intQuery (topicParams name) "page" 1 = (1 : Nat) := rfl
  have hsize : intQuery (topicParams name) "pageSize" 50 = 200 := by
    have hvalue : topicParams name "pageSize" = "200" := rfl
    rw [intQuery, hvalue]
    decide +kernel
  simp only [listTopics, hpage, hsize]
  rw [show topicParams name "search" = name from rfl,
    list_listed t.fits (Nat.le_refl 1) (show clampSize 200 = (200 : Nat) from rfl) (by simp)]
  rfl

/-- Where a topic is in the page. -/
theorem mem_page (sorter : Sorter nameLess) {item : Topic} (hitem : item ∈ t.topics)
    (hname : item.name = name) :
    item ∈ (filtered toLower sorter name t.topics).take 200 ↔
      (searched toLower name t.topics).countP (fun other => decide (other.name < name)) < 200 := by
  have hmem : item ∈ filtered toLower sorter name t.topics :=
    filtered_perm.mem_iff.2 (mem_searched hitem hname)
  have hirrefl : ∀ a : Topic, nameLess a a = false := fun a => by simp [nameLess]
  have hasymm : ∀ a b : Topic, nameLess a b = true → nameLess b a = false := by
    intro a b hab
    rw [nameLess_iff] at hab
    rw [nameLess, decide_eq_false_iff_not]
    exact fun hba => String.lt_irrefl _ (String.lt_trans hab hba)
  rw [mem_take_iff (filtered_ordered t) hirrefl hasymm hmem, filtered_perm.countP_eq]
  simp only [nameLess, hname]

/-- What `loadTopic` comes to. -/
theorem loadTopic_eq (t : ClusterTopics) (name : String) :
    loadTopic (listTopics toLower sorter (.ok (.ok t.topics))) name =
      match ((filtered toLower sorter name t.topics).take 200).find? fun item => item.name == name
      with
      | none => .error (.topicNotFound name)
      | some found => .ok found := by
  rw [loadTopic, topicParams_reply]
  rfl

end

/-- The topic of the name is found, and if there is none it is reported. -/
def Opens (toLower : Char → Char) (sorter : Sorter nameLess) (t : ClusterTopics) (name : String) :
    Prop :=
  (∀ item ∈ t.topics, item.name = name →
    loadTopic (listTopics toLower sorter (.ok (.ok t.topics))) name = .ok item) ∧
  ((∀ item ∈ t.topics, item.name ≠ name) →
    loadTopic (listTopics toLower sorter (.ok (.ok t.topics))) name = .error (.topicNotFound name))

/-- If there is a topic of the name, fewer than 200 names that contain it come
before it. -/
def EarlyEnough (toLower : Char → Char) (t : ClusterTopics) (name : String) : Prop :=
  name ∈ t.topics.map Topic.name →
    (searched toLower name t.topics).countP (fun other => decide (other.name < name)) < 200

/-- A topic can be opened if and only if it comes early enough among those its
name is a part of. A name that is not there is always reported. -/
theorem opens_iff (toLower : Char → Char) (sorter : Sorter nameLess) (t : ClusterTopics)
    (name : String) : Opens toLower sorter t name ↔ EarlyEnough toLower t name := by
  have hmissing : (∀ item ∈ t.topics, item.name ≠ name) →
      loadTopic (listTopics toLower sorter (.ok (.ok t.topics))) name =
        .error (.topicNotFound name) := by
    intro hnone
    have hfind : ((filtered toLower sorter name t.topics).take 200).find?
        (fun item => item.name == name) = none := by
      rw [List.find?_eq_none]
      intro item hitem heq
      have hmem := filtered_perm.mem_iff.1 (List.mem_of_mem_take hitem)
      exact hnone item (List.mem_of_mem_filter hmem) (eq_of_beq heq)
    rw [loadTopic_eq, hfind]
  constructor
  · rintro ⟨hopens, -⟩ hthere
    obtain ⟨item, hitem, hname⟩ := List.mem_map.1 hthere
    have hload := hopens item hitem hname
    rw [loadTopic_eq] at hload
    rw [← mem_page sorter hitem hname]
    split at hload
    · cases hload
    · next found hfind =>
        rw [← Except.ok.inj hload]
        exact List.mem_of_find?_eq_some hfind
  · intro hearly
    refine ⟨fun item hitem hname => ?_, hmissing⟩
    have hmem := (mem_page sorter hitem hname).2 (hearly (List.mem_map.2 ⟨item, hitem, hname⟩))
    have hsome : (((filtered toLower sorter name t.topics).take 200).find?
        fun item => item.name == name).isSome = true :=
      List.find?_isSome.2 ⟨item, hmem, by simp [hname]⟩
    obtain ⟨found, hfind⟩ := Option.isSome_iff_exists.1 hsome
    have hfound : found.name = name := by simpa using List.find?_some hfind
    have hsame : found = item := List.inj_on_of_nodup_map
      (nodup_filtered toLower sorter name t)
      (List.mem_of_mem_take (List.mem_of_find?_eq_some hfind)) (List.mem_of_mem_take hmem)
      (hfound.trans hname.symm)
    rw [loadTopic_eq, hfind, hsame]

/-! ## A name that comes late -/

/-- -a, --a and so on, 200 of them, and a -/
def lateTopics : ClusterTopics where
  topics :=
    ((List.range 201).map fun i => named (String.ofList (List.replicate (200 - i) '-' ++ ['a'])))
  distinct := by
    rw [List.map_map]
    refine List.Nodup.map_on (fun i hi j hj h => ?_) List.nodup_range
    have hlength := congrArg List.length (String.ofList_injective h)
    simp only [List.length_append, List.length_replicate, List.length_singleton] at hlength
    rw [List.mem_range] at hi hj
    omega
  fits := by
    rw [List.length_map, List.length_range]
    decide

/-- It exists, and is on the second page. -/
theorem late_missed : ¬ Opens Char.toLower nameSorter lateTopics "a" := by
  rintro ⟨hopens, -⟩
  have hlast : named "a" ∈ lateTopics.topics :=
    List.mem_map.2 ⟨200, by simp, rfl⟩
  have hload := hopens (named "a") hlast rfl
  rw [loadTopic_eq] at hload
  split at hload
  · cases hload
  · next found hfind =>
      have hmem := List.mem_of_find?_eq_some hfind
      rw [Except.ok.inj hload, mem_page _ hlast (show (named "a").name = "a" from rfl)] at hmem
      have hall : searched Char.toLower "a" lateTopics.topics = lateTopics.topics := by
        refine List.filter_eq_self.2 fun item hitem => ?_
        obtain ⟨i, -, rfl⟩ := List.mem_map.1 hitem
        have hsearch : lower Char.toLower (trimSpace "a") = ['a'] := by decide +kernel
        have hinfix : ['a'] <:+:
            lower Char.toLower (String.ofList (List.replicate (200 - i) '-' ++ ['a'])) := by
          rw [lower, String.toList_ofList, List.map_append]
          exact (List.suffix_append _ _).isInfix
        rw [hsearch, Topic.found]
        exact cut_of_infix hinfix
      rw [hall, lateTopics, List.countP_map, show 201 = 200 + 1 from rfl, List.range_succ,
        List.countP_append] at hmem
      have hmany : (List.range 200).countP ((fun other : Topic => decide (other.name < "a")) ∘
          fun i => named (String.ofList (List.replicate (200 - i) '-' ++ ['a']))) = 200 := by
        have hless : ∀ i ∈ List.range 200, ((fun other : Topic => decide (other.name < "a")) ∘
            fun i => named (String.ofList (List.replicate (200 - i) '-' ++ ['a']))) i = true := by
          intro i hi
          obtain ⟨k, hk⟩ : ∃ k, 200 - i = k + 1 := ⟨199 - i, by rw [List.mem_range] at hi; omega⟩
          rw [Function.comp_apply, hk, decide_eq_true_iff, String.lt_iff]
          show (String.ofList _).toList < _
          rw [String.toList_ofList, List.replicate_succ, List.cons_append]
          exact List.Lex.rel (by decide)
        rw [List.countP_eq_length.2 hless, List.length_range]
      omega

end KafkaManager.Web
