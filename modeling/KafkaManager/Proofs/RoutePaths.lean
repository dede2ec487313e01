import KafkaManager.Web.Navigation

/-!
# A route and its path

Every path that is built is read as the route it was built from, whatever is in
the id of the cluster and in the name of the topic. A path that was not built so
is read as some route, and the path of that route is read alike.
-/

namespace KafkaManager.Web

open Lib

/-! ## The parts of a path -/

theorem Page.isSegment (page : Page) : IsSegment '/' page.text := by
  cases page <;> exact ⟨by decide, by decide⟩

theorem TopicTab.isSegment (tab : TopicTab) : IsSegment '/' tab.text := by
  cases tab <;> exact ⟨by decide, by decide⟩

theorem clustersWord_isSegment : IsSegment '/' clustersWord := ⟨by decide, by decide⟩

theorem requestedPage_text (page : Page) : requestedPage (some page.text) = page := by
  cases page <;> rfl

theorem requestedTab_text (tab : TopicTab) : requestedTab (some tab.text) = tab := by
  cases tab <;> rfl

theorem safeDecode_encoded (s : String) : safeDecode (encodeURIComponent s) = s := by
  rw [safeDecode, decodeURIComponent_encodeURIComponent]
  exact String.ofList_toList

/-- A part that is there is read as a text that is not empty. -/
theorem safeDecode_ne_empty {value : List Char} (h : value ≠ []) : safeDecode value ≠ "" := by
  have hne : ∀ text : List Char, text ≠ [] → String.ofList text ≠ "" := by
    intro text htext hempty
    have hlist := congrArg String.toList hempty
    rw [String.toList_ofList] at hlist
    exact htext hlist
  unfold safeDecode
  cases hdecode : decodeURIComponent value with
  | none => exact hne value h
  | some text => exact hne text (decodeURIComponent_ne_nil hdecode h)

theorem filled_some {s : String} (h : s ≠ "") : filled (some s) = some s := by
  rw [filled, Option.filter_some, if_pos (by simpa using h)]

/-! ## Routes of a cluster -/

/-- A page of a cluster, or a tab of one of its topics. -/
inductive AppRoute.Complete : AppRoute → Prop
  | page (page : Page) {clusterId : String} (hid : clusterId ≠ "") :
      Complete { page, clusterId := some clusterId, topicName := none, topicTab := none }
  | topic (tab : TopicTab) {clusterId topicName : String} (hid : clusterId ≠ "")
      (hname : topicName ≠ "") :
      Complete
        { page := .topics
          clusterId := some clusterId
          topicName := some topicName
          topicTab := some tab }

/-- The page that is shown when no cluster is known. -/
def home : AppRoute where
  page := .dashboard
  clusterId := none
  topicName := none
  topicTab := none

theorem parse_build_page (page : Page) {clusterId : String} (hid : clusterId ≠ "") :
    parseRoutePath (buildRoutePath
        { page, clusterId := some clusterId, topicName := none, topicTab := none }) =
      { page, clusterId := some clusterId, topicName := none, topicTab := none } := by
  have hbuild : buildRoutePath
      { page, clusterId := some clusterId, topicName := none, topicTab := none } =
      String.ofList ([clustersWord, encodeURIComponent clusterId, page.text].flatMap ('/' :: ·)) := by
    unfold buildRoutePath
    rw [filled_some hid]
    dsimp only [filled, Option.filter]
    rw [ite_self]
    simp
  have hsegments : ∀ part ∈ [clustersWord, encodeURIComponent clusterId, page.text],
      IsSegment '/' part := by
    simp only [List.forall_mem_cons, List.not_mem_nil, false_implies, implies_true, and_true]
    exact ⟨clustersWord_isSegment, isSegment_encodeURIComponent hid, page.isSegment⟩
  rw [hbuild, parseRoutePath, String.toList_ofList, segments_flatMap hsegments, routeOfSegments,
    if_neg (by simp)]
  simp [safeDecode_encoded, requestedPage_text]

theorem parse_build_topic (tab : TopicTab) {clusterId topicName : String} (hid : clusterId ≠ "")
    (hname : topicName ≠ "") :
    parseRoutePath (buildRoutePath
        { page := .topics
          clusterId := some clusterId
          topicName := some topicName
          topicTab := some tab }) =
      { page := .topics
        clusterId := some clusterId
        topicName := some topicName
        topicTab := some tab } := by
  have hbuild : buildRoutePath
      { page := .topics
        clusterId := some clusterId
        topicName := some topicName
        topicTab := some tab } =
      String.ofList ([clustersWord, encodeURIComponent clusterId, Page.topics.text,
        encodeURIComponent topicName, tab.text].flatMap ('/' :: ·)) := by
    unfold buildRoutePath
    rw [filled_some hid]
    dsimp only
    rw [filled_some hname]
    simp
  have hsegments : ∀ part ∈ [clustersWord, encodeURIComponent clusterId, Page.topics.text,
      encodeURIComponent topicName, tab.text], IsSegment '/' part := by
    simp only [List.forall_mem_cons, List.not_mem_nil, false_implies, implies_true, and_true]
    exact ⟨clustersWord_isSegment, isSegment_encodeURIComponent hid, Page.isSegment _,
      isSegment_encodeURIComponent hname, tab.isSegment⟩
  rw [hbuild, parseRoutePath, String.toList_ofList, segments_flatMap hsegments, routeOfSegments,
    if_neg (by simp)]
  simp [safeDecode_encoded, requestedPage_text, requestedTab_text]

theorem parse_build {route : AppRoute} (h : route.Complete) :
    parseRoutePath (buildRoutePath route) = route := by
  cases h with
  | page page hid => exact parse_build_page page hid
  | topic tab hid hname => exact parse_build_topic tab hid hname

/-- What a path is read as. -/
theorem parse_complete (path : String) :
    parseRoutePath path = home ∨ (parseRoutePath path).Complete := by
  have hmem : ∀ (i : Nat) (part : List Char), (segments '/' path.toList)[i]? = some part →
      safeDecode part ≠ "" := by
    intro i part hpart
    exact safeDecode_ne_empty (mem_segments (List.mem_of_getElem? hpart)).1
  unfold parseRoutePath routeOfSegments
  split
  · exact .inl rfl
  · cases hcluster : (segments '/' path.toList)[1]? with
    | none => exact .inl rfl
    | some cluster =>
        have hid := hmem 1 cluster hcluster
        refine .inr ?_
        dsimp only
        split
        · exact .page _ hid
        · next hpage =>
            rw [ne_eq, not_not] at hpage
            rw [hpage]
            cases htopic : (segments '/' path.toList)[3]? with
            | none => exact .page _ hid
            | some topic => exact .topic _ hid (hmem 3 topic htopic)

/-- A complete route is read back from its path, and every path is read as a
route whose path is read alike. -/
theorem routes_paths_inverse :
    (∀ route : AppRoute, route.Complete → parseRoutePath (buildRoutePath route) = route) ∧
      ∀ path : String,
        parseRoutePath (buildRoutePath (parseRoutePath path)) = parseRoutePath path := by
  refine ⟨fun route h => parse_build h, fun path => ?_⟩
  rcases parse_complete path with hhome | hcomplete
  · rw [hhome]
    decide +kernel
  · exact parse_build hcomplete

/-- A topic and a cluster with reserved characters. -/
def reservedRoute : AppRoute where
  page := .topics
  clusterId := some "测试 / 内网"
  topicName := some "100%/orders?中国.v1"
  topicTab := some .messages

theorem routes_paths_inverse_reserved :
    parseRoutePath (buildRoutePath reservedRoute) = reservedRoute :=
  routes_paths_inverse.1 _ (.topic .messages (by decide) (by decide))

end KafkaManager.Web
