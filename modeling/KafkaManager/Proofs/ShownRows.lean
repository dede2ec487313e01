import KafkaManager.Web.ListPages

/-!
# Whose rows a page shows

No page tells an answer for the selection it has from one it had before, nor
drops its rows when the selection changes. So the rows can be of another cluster
than the one that is selected, and a drawer can be. They are not as long as every
answer is timely (`Fetched.timely`), and no other cluster is selected under an
open drawer, or where nothing will be asked for.
-/

namespace KafkaManager.Web

open Lib

/-! ## Consumer groups -/

namespace ConsumersPage

/-- What is shown is of the selected cluster, and a reset is sent to the cluster
of its group. -/
structure Sound (p : ConsumersPage) : Prop where
  fresh : p.list.Fresh p.clusterId
  drawer : ∀ d ∈ p.drawer, d.row.1 = p.clusterId
  sent : ∀ post ∈ p.sent, post.row.1 = post.clusterId

/-- The rows of an event are of the selection: an answer is timely, a group is
selected when no answer is to come, or is of the cluster, and under another
cluster no drawer stays and no row that will not be replaced. -/
def careful (p : ConsumersPage) : Event → Bool
  | .props clusterId _ =>
      clusterId == p.clusterId || p.drawer.isNone && (clusterId != "" || p.list.items.isEmpty)
  | .answer clusterId a =>
      p.list.timely p.clusterId clusterId (a.map ConsumerGroup.listed)
  | .select row => decide (p.list.Settled p.clusterId) || row.1 == p.clusterId
  | .refresh | .close | .reset _ | .cancelReset | .confirmReset | .resetAnswer .. => true

variable {p : ConsumersPage}

theorem Sound.load (h : p.Sound) (clusterId : String) : (p.load clusterId).Sound := by
  rw [ConsumersPage.load]
  split
  · exact h
  · exact ⟨h.fresh.request clusterId, h.drawer, h.sent⟩

theorem mount_sound (clusterId : String) (readOnly : Bool) : (mount clusterId readOnly).Sound :=
  Sound.load ⟨Fetched.fresh_of_nil rfl _, by simp, by simp⟩ clusterId

theorem Sound.setSelected (h : p.Sound) {row : GroupRow} (hrow : row.1 = p.clusterId) :
    (p.setSelected row).Sound := by
  rw [ConsumersPage.setSelected]
  split
  · refine ⟨h.fresh, fun d hd => ?_, h.sent⟩
    obtain rfl := Option.some.inj hd
    exact hrow
  · refine ⟨h.fresh, fun d hd => ?_, h.sent⟩
    obtain rfl := Option.some.inj hd
    exact hrow

/-- The drawer may change in all but its group. -/
theorem Sound.mapDrawer (h : p.Sound) {f : GroupDrawer → GroupDrawer} (hf : ∀ d, (f d).row = d.row) :
    ({ p with drawer := p.drawer.map f } : ConsumersPage).Sound := by
  refine ⟨h.fresh, fun d hd => ?_, h.sent⟩
  obtain ⟨d', hd', rfl⟩ := Option.map_eq_some_iff.1 hd
  rw [hf]
  exact h.drawer d' hd'

theorem Sound.confirmReset (h : p.Sound) : p.confirmReset.Sound := by
  rw [ConsumersPage.confirmReset]
  split
  · exact h
  · next d hd =>
      split
      · exact h
      · split
        · exact h
        · have hrow := h.drawer d hd
          refine ⟨h.fresh, fun d' hd' => ?_, fun post hpost => ?_⟩
          · obtain rfl := Option.some.inj hd'
            exact hrow
          · rcases List.mem_cons.1 hpost with rfl | hpost
            · exact hrow
            · exact h.sent post hpost

theorem Sound.resetAnswer (h : p.Sound) (post : ResetPost) (failure : Option String) :
    (p.resetAnswer post failure).Sound := by
  cases failure with
  | none =>
      have hclosed : ({ p with drawer := none, resets := p.resets.erase post } : ConsumersPage).Sound :=
        ⟨h.fresh, by simp, h.sent⟩
      exact hclosed.load post.clusterId
  | some message =>
      have hmap := h.mapDrawer (f := fun d =>
        if d.number = post.drawer then { d with resetting := false, error := message } else d)
        fun d => by split <;> rfl
      exact ⟨hmap.fresh, hmap.drawer, hmap.sent⟩

theorem step_sound (h : p.Sound) {e : Event} (hcareful : p.careful e = true) : (p.step e).Sound := by
  cases e with
  | props clusterId readOnly =>
      rw [step]
      split
      · next heq =>
          obtain rfl := heq
          exact ⟨h.fresh, h.drawer, h.sent⟩
      · next hne =>
          simp only [careful, Bool.or_eq_true, beq_iff_eq, hne, false_or, Bool.and_eq_true,
            Option.isNone_iff_eq_none, bne_iff_ne, List.isEmpty_iff] at hcareful
          obtain ⟨hdrawer, hnew⟩ := hcareful
          have hnone : ∀ d ∈ p.drawer, d.row.1 = clusterId := by simp [hdrawer]
          rw [load]
          split
          · next hempty =>
              have hfresh := hnew.resolve_left (by simp [hempty])
              exact ⟨Fetched.fresh_of_nil hfresh _, hnone, h.sent⟩
          · exact ⟨Fetched.fresh_request _ _, hnone, h.sent⟩
  | refresh => exact h.load p.clusterId
  | answer clusterId a =>
      rw [step]
      split
      · exact ⟨(Fetched.fresh_answer h.fresh _).2 hcareful, h.drawer, h.sent⟩
      · exact h
  | select row =>
      rw [step]
      split
      · next hshown =>
          rw [careful, Bool.or_eq_true, decide_eq_true_eq, beq_iff_eq] at hcareful
          refine h.setSelected ?_
          rcases hcareful with hsettled | hrow
          · exact h.fresh hsettled row hshown.1
          · exact hrow
      · exact h
  | close => exact ⟨h.fresh, by simp [step], h.sent⟩
  | reset request =>
      rw [step]
      split
      · exact h
      · exact h.mapDrawer fun d => by split <;> rfl
  | cancelReset => exact h.mapDrawer fun d => rfl
  | confirmReset => exact h.confirmReset
  | resetAnswer post failure =>
      rw [step]
      split
      · exact h.resetAnswer post failure
      · exact h

/-- The page when it is opened. -/
def Mounted (p : ConsumersPage) : Prop := ∃ clusterId readOnly, p = mount clusterId readOnly

theorem reach_sound (h : Reach step careful Mounted p) : p.Sound := by
  refine h.invariant ?_ fun p e hp hcareful => step_sound hp hcareful
  rintro _ ⟨clusterId, readOnly, rfl⟩
  exact mount_sound clusterId readOnly

end ConsumersPage

/-! ## Topics -/

namespace TopicsPage

/-- What is shown is of the selection, and a topic is opened as one of its
cluster. -/
structure Sound (p : TopicsPage) : Prop where
  fresh : p.list.Fresh p.selection
  opened : ∀ o ∈ p.opened, o.row.1.1 = o.clusterId

/-- With another selection the list is asked for, or there are no rows. -/
def replaces (p : TopicsPage) (selection : Selection) : Bool :=
  selection == p.selection || selection.1 != "" || p.list.items.isEmpty

def careful (p : TopicsPage) : Event → Bool
  | .props clusterId _ => p.replaces (clusterId, p.deferred)
  | .defer => p.replaces (p.clusterId, p.search)
  | .answer selection a => p.list.timely p.selection selection a
  | .openTopic row => decide (p.list.Settled p.selection) || row.1.1 == p.clusterId
  | .search _ | .create | .closeCreate | .submitCreate | .createAnswer .. => true

variable {p : TopicsPage}

theorem Sound.load (h : p.Sound) (selection : Selection) : (p.load selection).Sound := by
  rw [TopicsPage.load]
  split
  · exact h
  · exact ⟨h.fresh.request selection, h.opened⟩

theorem mount_sound (clusterId : String) (readOnly : Bool) : (mount clusterId readOnly).Sound :=
  Sound.load ⟨Fetched.fresh_of_nil rfl _, by simp⟩ (clusterId, "")

theorem Sound.render (h : p.Sound) {clusterId deferred : String}
    (hreplaces : p.replaces (clusterId, deferred) = true) : (p.render clusterId deferred).Sound := by
  have hnext : ({ p with clusterId := clusterId, deferred := deferred } : TopicsPage).selection =
      (clusterId, deferred) := rfl
  rw [TopicsPage.render]
  simp only [hnext]
  split
  · next heq =>
      refine ⟨?_, h.opened⟩
      rw [hnext, heq]
      exact h.fresh
  · next hne =>
      simp only [replaces, Bool.or_eq_true, beq_iff_eq, hne, false_or, bne_iff_ne,
        List.isEmpty_iff] at hreplaces
      rw [TopicsPage.load]
      split
      · next hempty =>
          exact ⟨Fetched.fresh_of_nil (hreplaces.resolve_left fun hne => hne hempty) _, h.opened⟩
      · exact ⟨Fetched.fresh_request _ _, h.opened⟩

theorem step_sound (h : p.Sound) {e : Event} (hcareful : p.careful e = true) : (p.step e).Sound := by
  cases e with
  | props clusterId readOnly =>
      have hprops : ({ p with readOnly := readOnly } : TopicsPage).Sound := ⟨h.fresh, h.opened⟩
      exact hprops.render hcareful
  | search search => exact ⟨h.fresh, h.opened⟩
  | defer => exact h.render hcareful
  | answer selection a =>
      rw [step]
      split
      · exact ⟨(Fetched.fresh_answer h.fresh a).2 hcareful, h.opened⟩
      · exact h
  | openTopic row =>
      rw [step]
      split
      · next hshown =>
          rw [careful, Bool.or_eq_true, decide_eq_true_eq, beq_iff_eq] at hcareful
          refine ⟨h.fresh, fun o ho => ?_⟩
          rcases List.mem_cons.1 ho with rfl | ho
          · rcases hcareful with hsettled | hrow
            · exact congrArg Prod.fst (h.fresh hsettled row hshown.1)
            · exact hrow
          · exact h.opened o ho
      · exact h
  | create =>
      rw [step]
      split
      · exact h
      · exact ⟨h.fresh, h.opened⟩
  | closeCreate => exact ⟨h.fresh, h.opened⟩
  | submitCreate =>
      rw [step]
      split
      · exact ⟨h.fresh, h.opened⟩
      · exact h
  | createAnswer selection created =>
      rw [step]
      split
      · have hnext : ({ p with
            creating := false
            creations := p.creations.erase selection } : TopicsPage).Sound := ⟨h.fresh, h.opened⟩
        split
        · exact hnext.load selection
        · exact ⟨h.fresh, h.opened⟩
      · exact h

def Mounted (p : TopicsPage) : Prop := ∃ clusterId readOnly, p = mount clusterId readOnly

theorem reach_sound (h : Reach step careful Mounted p) : p.Sound := by
  refine h.invariant ?_ fun p e hp hcareful => step_sound hp hcareful
  rintro _ ⟨clusterId, readOnly, rfl⟩
  exact mount_sound clusterId readOnly

end TopicsPage

/-! ## Messages -/

namespace MessagesPage

/-- What is shown is of the selection, also the message that is picked out, and
it is the selection that is followed. -/
structure Sound (p : MessagesPage) : Prop where
  fresh : p.list.Fresh p.selection
  selected : p.list.Settled p.selection → ∀ row ∈ p.selected, row.1 = p.selection
  stream : ∀ selection ∈ p.stream, selection = p.selection

/-- Another cluster is selected where the topic is fixed, or nothing is shown,
and an answer is timely. When none come, the message that is picked out is also
to be right. -/
def careful (p : MessagesPage) : Event → Bool
  | .props clusterId fixedTopic =>
      clusterId == p.clusterId || fixedTopic != "" || p.list.items.isEmpty && p.selected.isNone
  | .answer selection a =>
      p.list.timely p.selection selection a && match a with
        | .items _ => true
        | .failed _ =>
            !p.list.settles p.selection selection || p.selected.all fun row => row.1 == p.selection
  | .typeTopic _ | .submit | .follow | .message _ | .streamError | .select _ => true

variable {p : MessagesPage}

theorem Sound.stop (h : p.Sound) : p.stop.Sound := ⟨h.fresh, h.selected, by simp [MessagesPage.stop]⟩

/-- A query is for what it selects. -/
theorem queryMessages_sound (requestedTopic : String) : (p.queryMessages requestedTopic).Sound :=
  ⟨Fetched.fresh_request _ _, fun h => absurd List.mem_cons_self h, by simp [queryMessages]⟩

theorem mount_sound (clusterId fixedTopic : String) : (mount clusterId fixedTopic).Sound := by
  rw [mount, effect]
  split
  · exact ⟨Fetched.fresh_of_nil rfl _, by simp [MessagesPage.stop], by simp [MessagesPage.stop]⟩
  · exact queryMessages_sound _

theorem Sound.follow (h : p.Sound) : p.follow.Sound := by
  rw [MessagesPage.follow]
  split
  · exact h.stop
  · split
    · exact ⟨h.fresh, h.selected, h.stream⟩
    · exact ⟨Fetched.fresh_of_nil rfl _, by simp, by simp [selection]⟩

theorem Sound.answer (h : p.Sound) {selection : Selection} {a : Answer Message.Record}
    (hcareful : p.careful (.answer selection a) = true) : (p.answer selection a).Sound := by
  simp only [careful, Bool.and_eq_true] at hcareful
  obtain ⟨htimely, hpicked⟩ := hcareful
  have hfresh := (Fetched.fresh_answer h.fresh a).2 htimely
  refine ⟨hfresh, fun hsettled row hrow => ?_, h.stream⟩
  cases a with
  | items rows =>
      -- the first of the rows
      obtain ⟨record, hrecord, rfl⟩ := Option.map_eq_some_iff.1 hrow
      exact hfresh hsettled _ (List.mem_map_of_mem (List.mem_of_head? hrecord))
  | failed message =>
      have hsettles : p.list.settles p.selection selection = true :=
        (Fetched.settles_iff (.failed message)).2 hsettled
      rw [hsettles, Bool.not_true, Bool.false_or] at hpicked
      exact beq_iff_eq.1 ((Option.all_eq_true _ _).1 hpicked row hrow)

theorem Sound.message (h : p.Sound) (record : Message.Record) : (p.message record).Sound := by
  rw [MessagesPage.message]
  split
  · exact h
  · next selection hstream =>
      refine ⟨fun hsettled row hrow => ?_, h.selected, h.stream⟩
      rcases List.mem_cons.1 (List.mem_of_mem_take hrow) with rfl | hrow
      · exact h.stream selection hstream
      · exact h.fresh hsettled row hrow

theorem step_sound (h : p.Sound) {e : Event} (hcareful : p.careful e = true) : (p.step e).Sound := by
  cases e with
  | props clusterId fixedTopic =>
      rw [step]
      split
      · next heq =>
          obtain ⟨rfl, rfl⟩ := heq
          exact ⟨h.fresh, h.selected, h.stream⟩
      · rw [effect]
        split
        · next hfixed =>
            obtain rfl := hfixed
            simp only [careful, Bool.or_eq_true, beq_iff_eq, bne_self_eq_false, Bool.and_eq_true,
              List.isEmpty_iff, Option.isNone_iff_eq_none, Bool.false_eq_true, or_false] at hcareful
            rcases hcareful with rfl | ⟨hitems, hselected⟩
            · exact ⟨h.fresh, h.selected, by simp [MessagesPage.stop]⟩
            · exact ⟨Fetched.fresh_of_nil hitems _, by simp [MessagesPage.stop, hselected],
                by simp [MessagesPage.stop]⟩
        · exact queryMessages_sound _
  | typeTopic topic =>
      rw [step]
      split
      · exact ⟨h.fresh, h.selected, h.stream⟩
      · exact h
  | submit =>
      rw [step]
      split
      · exact h
      · exact queryMessages_sound _
  | follow => exact h.follow
  | answer selection a =>
      rw [step]
      split
      · exact h.answer hcareful
      · exact h
  | message record => exact h.message record
  | streamError =>
      rw [step, streamError]
      split
      · exact h
      · exact Sound.stop ⟨h.fresh, h.selected, h.stream⟩
  | select row =>
      rw [step]
      split
      · next hshown =>
          refine ⟨h.fresh, fun hsettled row' hrow' => ?_, h.stream⟩
          obtain rfl := Option.some.inj hrow'
          exact h.fresh hsettled row hshown
      · exact h

def Mounted (p : MessagesPage) : Prop := ∃ clusterId fixedTopic, p = mount clusterId fixedTopic

theorem reach_sound (h : Reach step careful Mounted p) : p.Sound := by
  refine h.invariant ?_ fun p e hp hcareful => step_sound hp hcareful
  rintro _ ⟨clusterId, fixedTopic, rfl⟩
  exact mount_sound clusterId fixedTopic

end MessagesPage

/-! ## The three pages -/

/-- As long as answers are timely and no row outlasts its cluster, a page to which
no answer for its selection is to come shows rows of the selection, and what is
done with a row is done on its cluster. -/
theorem rows_selected {consumers : ConsumersPage} {topics : TopicsPage} {messages : MessagesPage}
    (hconsumers : Reach ConsumersPage.step ConsumersPage.careful ConsumersPage.Mounted consumers)
    (htopics : Reach TopicsPage.step TopicsPage.careful TopicsPage.Mounted topics)
    (hmessages : Reach MessagesPage.step MessagesPage.careful MessagesPage.Mounted messages) :
    consumers.Sound ∧ topics.Sound ∧ messages.Sound :=
  ⟨ConsumersPage.reach_sound hconsumers, TopicsPage.reach_sound htopics,
    MessagesPage.reach_sound hmessages⟩

def orders : ConsumerGroup := ⟨"orders", "Stable", "consumer", 1, 5, none⟩

def ordersTopic : Topic := ⟨"orders", false, 1, 1, 0, []⟩

def ordersRecord : Message.Record := ⟨"orders", 0, 7, 0, "", "", []⟩

/-- Another cluster is selected, its groups come, and one of them is reset. -/
def calmReset : List ConsumersPage.Event :=
  [.answer "a" (.items [orders]), .props "b" false, .answer "b" (.items [orders]),
    .select ("b", orders.listed), .reset ⟨"latest", 0⟩, .confirmReset]

def calmSearch : List TopicsPage.Event :=
  [.answer ("a", "") (.items [ordersTopic]), .search "o", .defer,
    .answer ("a", "o") (.items [ordersTopic]), .openTopic (("a", "o"), ordersTopic)]

def calmQuery : List MessagesPage.Event :=
  [.typeTopic "orders", .submit, .answer ("a", "orders") (.items [ordersRecord]), .follow,
    .message ordersRecord]

theorem rows_selected_calm :
    (run ConsumersPage.step (ConsumersPage.mount "a" false) calmReset).sent.length = 1 ∧
      (run TopicsPage.step (TopicsPage.mount "a" false) calmSearch).opened.length = 1 ∧
      (run MessagesPage.step (MessagesPage.mount "a" "") calmQuery).list.items.length = 1 ∧
      (run ConsumersPage.step (ConsumersPage.mount "a" false) calmReset).Sound ∧
      (run TopicsPage.step (TopicsPage.mount "a" false) calmSearch).Sound ∧
      (run MessagesPage.step (MessagesPage.mount "a" "") calmQuery).Sound := by
  refine ⟨by decide +kernel, by decide +kernel, by decide +kernel, rows_selected ?_ ?_ ?_⟩
  · exact (Reach.init ⟨"a", false, rfl⟩).run (by decide +kernel)
  · exact (Reach.init ⟨"a", false, rfl⟩).run (by decide +kernel)
  · exact (Reach.init ⟨"a", "", rfl⟩).run (by decide +kernel)

/-- The groups of the cluster before come last, and one of them is reset. -/
def overtaken : List ConsumersPage.Event :=
  [.props "b" false, .answer "b" (.items []), .answer "a" (.items [orders]),
    .select ("a", orders.listed), .reset ⟨"latest", 0⟩, .confirmReset]

/-- The reset is sent to the cluster that is selected. -/
theorem reset_astray :
    (run ConsumersPage.step (ConsumersPage.mount "a" false) overtaken).list.Settled "b" ∧
      (run ConsumersPage.step (ConsumersPage.mount "a" false) overtaken).clusterId = "b" ∧
      (run ConsumersPage.step (ConsumersPage.mount "a" false) overtaken).list.items =
        [("a", orders.listed)] ∧
      (run ConsumersPage.step (ConsumersPage.mount "a" false) overtaken).sent =
        [⟨"b", ("a", orders.listed), ⟨"latest", 0⟩, 0⟩] := by
  decide +kernel

end KafkaManager.Web
