import Mathlib.Data.List.Induction
import KafkaManager.Lib.JsonLines
import KafkaManager.Web.Follow

/-!
# What following a topic shows

Every text the server sends is a frame (`isFrame_record`), because there is no
line break in what `json.Marshal` writes. So what has arrived, and is not lost
on the way, has dispatched the events of the first so many records, whatever
pieces it came in, and the page has put them in front of each other.
-/

namespace KafkaManager.Web

open Lib Message

/-! ## Frames -/

theorem write_whole (v : Json) : ∀ c ∈ v.write, c ≠ '\n' ∧ c ≠ '\r' := by
  intro c hc
  have hprinted := List.all_eq_true.1 (Json.write_printed v) c hc
  constructor <;> rintro rfl <;> exact absurd hprinted (by decide)

/-- The event of a record. -/
def recordEvent (r : Record) : ServerEvent := ⟨"message".toList, r.toJson.write⟩

theorem isFrame_record (r : Record) : EventParser.IsFrame (recordFrame r) (recordEvent r) :=
  EventParser.isFrame_message (write_whole _)

def errorEvent (error : String) : ServerEvent := ⟨"error".toList, (errorJson error).write⟩

theorem isFrame_error (error : String) : EventParser.IsFrame (errorFrame error) (errorEvent error) :=
  EventParser.isFrame_event (EventParser.inLine_of_all (by decide)) (by decide) (write_whole _)

/-! ## The page -/

theorem dispatch_message {p : FollowPage} {e : ServerEvent} (hp : p.live = true)
    (he : e.type = "message".toList) : p.dispatch e = p.onmessage e.data := by
  rw [FollowPage.dispatch, hp, if_neg (by decide), if_pos he]

theorem dispatch_record {p : FollowPage} (hp : p.live = true) (r : Record) :
    p.dispatch (recordEvent r) = { p with items := (r.toJson.toJs :: p.items).take 500 } := by
  have hparse : JsValue.parse (recordEvent r).data = some r.toJson.toJs := JsValue.parse_write _
  rw [dispatch_message hp (by dsimp only [recordEvent]), FollowPage.onmessage, hparse]

/-- The newest are in front, and there are 500 at most. -/
theorem dispatch_records (records : List Record) :
    (records.map recordEvent).foldl FollowPage.dispatch .start =
      { live := true
        items := (records.reverse.take 500).map fun r => r.toJson.toJs
        error := "" } := by
  induction records using List.reverseRecOn with
  | nil => rfl
  | append_singleton records r ih =>
      rw [List.map_append, List.foldl_append, ih, List.map_singleton, List.foldl_cons,
        List.foldl_nil, dispatch_record rfl, List.reverse_append, List.reverse_singleton,
        List.singleton_append]
      simp only [List.take_succ_cons, List.map_cons, List.map_take, List.take_take]
      rfl

/-- An error takes nothing away. -/
theorem dispatch_error (p : FollowPage) (error : String) :
    (p.dispatch (errorEvent error)).items = p.items := by
  have hname : "error".toList ≠ "message".toList := by decide
  unfold FollowPage.dispatch
  split
  · rfl
  · rw [errorEvent, if_neg hname, if_pos rfl]
    rfl

/-! ## The stream -/

namespace Following

section

variable {F : Floats} {s : Following} {q q₀ : Query}

/-- Everything the server has to say so far, with its events. -/
def frames (F : Floats) (s : Following) : List (List Char × ServerEvent) :=
  (s.matched F s.polled).map (fun r => (recordFrame r, recordEvent r)) ++
    (s.fault.elim [] fun e => [(errorFrame e, errorEvent e)])

/-- What the page has made of what it has read. -/
def shown (s : Following) : FollowPage :=
  (EventParser.clean.feed s.read).2.foldl FollowPage.dispatch .start

structure Inv (F : Floats) (q : Query) (s : Following) : Prop where
  query : s.query = q
  text : ∃ rest, s.read ++ (s.wire ++ rest) = (s.frames F).flatMap Prod.fst ∧
    (s.torn = false → rest = [])
  streaming : s.streaming = true → s.fault = none ∧ s.torn = false
  items : s.page.items = s.shown.items
  live : s.page.live = true → s.page = s.shown ∧ s.source = (EventParser.clean.feed s.read).1

theorem frames_isFrame : ∀ f ∈ s.frames F, EventParser.IsFrame f.1 f.2 := by
  intro f hf
  rcases List.mem_append.1 hf with hf | hf
  · obtain ⟨r, -, rfl⟩ := List.mem_map.1 hf
    exact isFrame_record r
  · cases hfault : s.fault with
    | none =>
        rw [hfault] at hf
        cases hf
    | some e =>
        rw [hfault] at hf
        obtain rfl := List.mem_singleton.1 hf
        exact isFrame_error e

/-- The text of what is said. -/
theorem frames_text : (s.frames F).flatMap Prod.fst =
    (s.matched F s.polled).flatMap recordFrame ++ s.fault.elim [] errorFrame := by
  rw [frames, List.flatMap_append, List.flatMap_map]
  cases s.fault with
  | none => rfl
  | some e => simp

theorem start_ok (h : Following.start q = .ok s) : ∃ q₁ q₂, validateQuery q = .ok q₁ ∧
    validateQuery { q₁ with limit := 500 } = .ok q₂ ∧
      s = { query := q₂, streaming := true, wire := [], source := .clean, page := .start,
            polled := [], fault := none, torn := false, read := [] } := by
  simp only [Following.start, bind, Except.bind] at h
  split at h
  · cases h
  · next q₁ hfirst =>
      split at h
      · cases h
      · next q₂ hsecond => exact ⟨q₁, q₂, hfirst, hsecond, (Except.ok.inj h).symm⟩

/-- The server writes. What does not get out is missing at the end. -/
theorem Inv.write (h : Inv F q s) (hstreaming : s.streaming = true) {s' : Following}
    {more : List Char} (out : Option Nat) (hquery : s'.query = s.query)
    (hframes : (s'.frames F).flatMap Prod.fst = (s.frames F).flatMap Prod.fst ++ more)
    (hread : s'.read = s.read) (hsource : s'.source = s.source) (hpage : s'.page = s.page)
    (hwire : s'.wire = (s.write more out).wire) (htorn : s'.torn = (s.write more out).torn)
    (hgoes : s'.streaming = true → s'.fault = none ∧ out = none) : Inv F q s' := by
  obtain ⟨hfault, hwhole⟩ := h.streaming hstreaming
  obtain ⟨rest, htext, hrest⟩ := h.text
  rw [hrest hwhole, List.append_nil] at htext
  have hshown : s'.shown = s.shown := by rw [shown, hread, shown]
  refine ⟨hquery.trans h.query, ?_, fun hs => ?_, ?_, fun hlive => ?_⟩
  · rw [hframes, ← htext, hread, hwire, htorn]
    cases out with
    | none => exact ⟨[], by simp [Following.write], fun _ => rfl⟩
    | some n =>
        exact ⟨more.drop n, by simp [Following.write, List.take_append_drop], fun h => nomatch h⟩
  · obtain ⟨hfault', rfl⟩ := hgoes hs
    exact ⟨hfault', htorn.trans hwhole⟩
  · rw [hpage, hshown]
    exact h.items
  · rw [hpage] at hlive ⊢
    rw [hshown, hsource, hread]
    exact h.live hlive

theorem Inv.poll (h : Inv F q s) (hstreaming : s.streaming = true)
    (answer : Except String (List Record)) (out : Option Nat) :
    Inv F q (s.poll F answer out) := by
  obtain ⟨hfault, -⟩ := h.streaming hstreaming
  cases answer with
  | error e =>
      have hframes : ((s.poll F (.error e) out).frames F).flatMap Prod.fst =
          (s.frames F).flatMap Prod.fst ++ errorFrame e := by
        rw [frames_text, frames_text, hfault, Option.elim_none, List.append_nil]
        cases out <;> rfl
      refine h.write hstreaming out ?_ hframes ?_ ?_ ?_ ?_ ?_ fun hs => nomatch hs
      all_goals cases out <;> rfl
  | ok records =>
      have hframes : ((s.poll F (.ok records) out).frames F).flatMap Prod.fst =
          (s.frames F).flatMap Prod.fst ++ (s.matched F records).flatMap recordFrame := by
        have hmatched : (s.poll F (.ok records) out).matched F (s.polled ++ records) =
            s.matched F s.polled ++ s.matched F records := by
          cases out <;> exact List.filter_append ..
        have hpolled : (s.poll F (.ok records) out).polled = s.polled ++ records := by
          cases out <;> rfl
        have hnone : (s.poll F (.ok records) out).fault = none := by cases out <;> exact hfault
        rw [frames_text, frames_text, hpolled, hmatched, hnone, hfault, List.flatMap_append]
        simp only [Option.elim_none, List.append_nil]
      refine h.write hstreaming out ?_ hframes ?_ ?_ ?_ ?_ ?_ fun hs => ?_
      case refine_7 =>
        cases out with
        | none => exact ⟨hfault, rfl⟩
        | some n => exact nomatch hs
      all_goals cases out <;> rfl

theorem Inv.arrive (h : Inv F q s) (hlive : s.page.live = true) (n : Nat) :
    Inv F q (s.arrive n) := by
  obtain ⟨hpage, hsource⟩ := h.live hlive
  obtain ⟨rest, htext, hrest⟩ := h.text
  have hfeed : (EventParser.clean.feed (s.read ++ s.wire.take n)) =
      ((s.source.feed (s.wire.take n)).1,
        (EventParser.clean.feed s.read).2 ++ (s.source.feed (s.wire.take n)).2) := by
    rw [EventParser.feed_append, hsource]
  have hshown : (s.arrive n).page = (s.arrive n).shown := by
    show (s.source.feed (s.wire.take n)).2.foldl FollowPage.dispatch s.page =
      (EventParser.clean.feed (s.read ++ s.wire.take n)).2.foldl FollowPage.dispatch .start
    rw [hfeed, List.foldl_append, hpage]
    rfl
  refine ⟨h.query, ⟨rest, ?_, hrest⟩, h.streaming, congrArg FollowPage.items hshown, fun _ =>
    ⟨hshown, ?_⟩⟩
  · show s.read ++ s.wire.take n ++ (s.wire.drop n ++ rest) = (s.frames F).flatMap Prod.fst
    rw [← htext, List.append_assoc, ← List.append_assoc (s.wire.take n), List.take_append_drop]
  · show (s.source.feed (s.wire.take n)).1 = (EventParser.clean.feed (s.read ++ s.wire.take n)).1
    rw [hfeed]

theorem Inv.step (h : Inv F q s) (e : FollowEvent) : Inv F q (s.step F e) := by
  cases e with
  | poll answer out =>
      unfold Following.step
      dsimp only
      split
      · next hstreaming => exact h.poll hstreaming answer out
      · exact h
  | cancel => exact ⟨h.query, h.text, (fun hs => nomatch hs), h.items, h.live⟩
  | arrive n =>
      unfold Following.step
      dsimp only
      split
      · next hlive => exact h.arrive hlive n
      · exact h
  | disconnect =>
      unfold Following.step
      dsimp only
      split
      · exact ⟨h.query, h.text, h.streaming, h.items, fun hlive => nomatch hlive⟩
      · exact h
  | stop => exact ⟨h.query, h.text, h.streaming, h.items, fun hlive => nomatch hlive⟩

theorem Inv.start (h : Following.start q₀ = .ok s) : Inv F s.query s := by
  obtain ⟨q₁, q₂, -, -, rfl⟩ := start_ok h
  exact ⟨rfl, ⟨[], rfl, fun _ => rfl⟩, fun _ => ⟨rfl, rfl⟩, rfl, fun _ => ⟨rfl, rfl⟩⟩

/-- What the page has taken in is the first so many of the records. -/
theorem Inv.shows (h : Inv F q s) : ∃ k ≤ (s.matched F s.polled).length,
    s.page.items =
      (((s.matched F s.polled).take k).reverse.take 500).map (fun r => r.toJson.toJs) ∧
      (s.wire = [] → s.torn = false → k = (s.matched F s.polled).length) := by
  obtain ⟨rest, htext, hrest⟩ := h.text
  obtain ⟨k, hk, hevents, hall⟩ := EventParser.feed_frames frames_isFrame htext
  let records := s.matched F s.polled
  have hlength : (records.map fun r => (recordFrame r, recordEvent r)).length = records.length :=
    List.length_map _
  have hitems : s.page.items = ((((s.frames F).take k).map Prod.snd).foldl
      FollowPage.dispatch .start).items := by
    rw [h.items, shown, hevents]
  rw [frames, List.take_append, List.map_append, List.foldl_append, ← List.map_take, List.map_map,
    hlength] at hitems
  refine ⟨min k records.length, Nat.min_le_right _ _, ?_, fun hwire htorn => ?_⟩
  · have htake : records.take (min k records.length) = records.take k := by
      rw [List.take_eq_take_iff]
      omega
    have hrecords := dispatch_records (records.take k)
    show _ = ((records.take (min k records.length)).reverse.take 500).map _
    rw [htake]
    refine (hitems.trans ?_).trans (congrArg FollowPage.items hrecords)
    cases s.fault with
    | none => rw [Option.elim_none, List.take_nil]; rfl
    | some e =>
        rw [Option.elim_some]
        rcases Nat.eq_zero_or_pos (k - records.length) with hnone | hsome
        · rw [hnone]
          rfl
        · have herror : [(errorFrame e, errorEvent e)].take (k - records.length) =
              [(errorFrame e, errorEvent e)] := List.take_of_length_le hsome
          rw [herror]
          exact dispatch_error _ e
  · have hwhole := hall (by rw [hwire, hrest htorn]; rfl)
    have hframes : records.length ≤ (s.frames F).length := by
      rw [frames, List.length_append, hlength]
      exact Nat.le_add_right _ _
    exact Nat.min_eq_right (hwhole ▸ hframes)

/-- However the polls go and in whatever pieces the text arrives, the page
shows what a first part of the records dispatches that match the query, the
newest 500 with the newest in front, and it is all of them if nothing is on the
way and nothing was lost. -/
theorem following_shows (F : Floats) {q₀ : Query} {s₀ : Following}
    (hstart : Following.start q₀ = .ok s₀) (es : List FollowEvent) :
    ∃ matched k, streamMessages F q₀ (run (Following.step F) s₀ es).polled = .ok matched ∧
      k ≤ matched.length ∧
      (run (Following.step F) s₀ es).page.items =
        ((matched.take k).reverse.take 500).map (fun r => r.toJson.toJs) ∧
      ((run (Following.step F) s₀ es).wire = [] →
        (run (Following.step F) s₀ es).torn = false → k = matched.length) := by
  have hinv : Inv F s₀.query (run (Following.step F) s₀ es) :=
    run_invariant (P := Inv F s₀.query) (fun s e h => Inv.step h e) (Inv.start hstart) es
  obtain ⟨k, hk, hitems, hall⟩ := hinv.shows
  refine ⟨_, k, ?_, hk, hitems, hall⟩
  obtain ⟨q₁, q₂, hfirst, hsecond, rfl⟩ := start_ok hstart
  rw [streamMessages, hfirst]
  dsimp only [bind, Except.bind]
  rw [stream, hsecond, matched, hinv.query]
  rfl

end

/-! ## A stream in pieces -/

def ordersQuery : Query where
  topic := "orders"
  partition := -1
  mode := "live"
  offset := 0
  timestamp := 0
  limit := 0
  scanLimit := 0
  keyFilter := "order-"
  keyOperator := "prefix"
  valueFilter := ""
  valueOperator := ""
  jsonFilters := []

def order (offset : Int) (key value : String) : Record where
  topic := "orders"
  partition := 0
  offset := offset
  timestamp := 1700000000000
  key := key
  value := value
  headers := []

def noFloats : Floats where
  Number := Unit
  parseFloat := fun _ => none
  eq := fun _ _ => false
  lt := fun _ _ => false
  le := fun _ _ => false

def ordersStart : Following where
  query := { ordersQuery with limit := 500, scanLimit := 5000 }
  streaming := true
  wire := []
  source := .clean
  page := .start
  polled := []
  fault := none
  torn := false
  read := []

/-- Two of three records match, one of them arrives in two pieces, and the
connection breaks when the consumer does. -/
def ordersRun : List FollowEvent :=
  [.poll (.ok [order 0 "order-1" "new\nline", order 1 "refund-1" "x"]) none, .arrive 20,
    .poll (.ok [order 2 "order-2" "y"]) none, .poll (.error "broker down") none, .arrive 1000]

theorem following_shows_orders :
    (run (Following.step noFloats) ordersStart ordersRun).page.items =
      [(order 2 "order-2" "y").toJson.toJs, (order 0 "order-1" "new\nline").toJson.toJs] := by
  have hstart : Following.start ordersQuery = .ok ordersStart := by rfl
  obtain ⟨matched, k, hstream, -, hitems, hall⟩ := following_shows noFloats hstart ordersRun
  have hmatched : matched = [order 0 "order-1" "new\nline", order 2 "order-2" "y"] := by
    have hpolled : (run (Following.step noFloats) ordersStart ordersRun).polled =
        [order 0 "order-1" "new\nline", order 1 "refund-1" "x", order 2 "order-2" "y"] := rfl
    rw [hpolled] at hstream
    exact (Except.ok.inj hstream).symm.trans (by decide +kernel)
  rw [hitems, hall (by decide +kernel) (by decide +kernel), hmatched]
  rfl

end Following

end KafkaManager.Web
