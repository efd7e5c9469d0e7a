import CompanionBackend.KeysetPages
import CompanionBackend.ProviderEvents

/-!
# The timeline of a user

Conversation rows, messages of the agent and finished calls share one sequence of numbers. A page of
the timeline asks each of the three tables for one row more than it can show, and merges what it gets.
-/
namespace CompanionBackend.Timelines

open ProviderEvents KeysetPages

structure ConversationLog where
  id : ℕ
  userId : ℤ
  role : Text
  content : Text
  emotionLabel : Option Text
  sortSeq : ℤ
  deliveryStatus : Option Text
  skippedInPrompt : Option Bool
  createdAt : Option ℤ
  deriving DecidableEq

structure AgentMessage where
  id : ℕ
  userId : ℤ
  triggerType : Text
  content : Text
  isRead : Bool
  sortSeq : ℤ
  createdAt : Option ℤ
  deriving DecidableEq

structure VoiceCall where
  id : ℕ
  userId : ℤ
  callId : Text
  status : Text
  sortSeq : Option ℤ
  createdAt : Option ℤ
  endedAt : Option ℤ
  durationSeconds : Option ℤ
  summaryStatus : Text
  callSummary : Option Text
  transcriptExpiresAt : Option ℤ
  deletionFenceAt : Option ℤ
  deletedAt : Option ℤ
  deriving DecidableEq

structure Database where
  conversations : List ConversationLog
  agentMessages : List AgentMessage
  calls : List VoiceCall

/-- `CALL_FIELDS`; all of them are `none` for what is not a call. -/
structure CallFields where
  callId : Option Text
  callStatus : Option Text
  durationSeconds : Option ℤ
  summaryStatus : Option Text
  callSummary : Option Text
  deriving DecidableEq

/-- What a client shows after a call in a crisis. -/
structure CrisisResource where
  banner : Text
  resource : Text
  expiresAt : Text
  deriving DecidableEq

/-- An entry of a page. `call` is left out where calls are not included. -/
structure TimelineItem where
  source : Text
  sortSeq : ℤ
  id : ℕ
  content : Option Text
  createdAt : Option Text
  emotionLabel : Option Text
  isRead : Option Bool
  triggerType : Option Text
  deliveryStatus : Option Text
  skippedInPrompt : Option Bool
  call : Option CallFields
  crisisResource : Option CrisisResource
  deriving DecidableEq

/-- What a page needs besides the tables: the time, how a time is written, and the resources that go
with a call. -/
structure Presentation where
  now : ℤ
  isoformat : ℤ → Text
  crisis : VoiceCall → Option CrisisResource

def noCall : CallFields := ⟨none, none, none, none, none⟩

variable (P : Presentation) (includeCalls : Bool)

/-- `_timeline_conv_item`. -/
def timelineConvItem (row : ConversationLog) : TimelineItem :=
  let assistant := decide (row.role = "assistant".toList)
  { source := row.role
    sortSeq := row.sortSeq
    id := row.id
    content := some row.content
    createdAt := row.createdAt.map P.isoformat
    emotionLabel := row.emotionLabel
    isRead := none
    triggerType := none
    deliveryStatus := if assistant then none else row.deliveryStatus
    skippedInPrompt := if assistant then none else some (row.skippedInPrompt.getD false)
    call := if includeCalls then some noCall else none
    crisisResource := none }

def timelineAgentItem (row : AgentMessage) : TimelineItem :=
  { source := "agent".toList
    sortSeq := row.sortSeq
    id := row.id
    content := some row.content
    createdAt := row.createdAt.map P.isoformat
    emotionLabel := none
    isRead := some row.isRead
    triggerType := some row.triggerType
    deliveryStatus := none
    skippedInPrompt := none
    call := if includeCalls then some noCall else none
    crisisResource := none }

/-- A column that the query has found to be there. -/
def callSeq (call : VoiceCall) : ℤ := call.sortSeq.getD 0

/-- `timeline_call_item`. -/
def timelineCallItem (call : VoiceCall) : TimelineItem :=
  let readable := call.transcriptExpiresAt.all fun expires => decide (P.now < expires)
  let displayAt := if call.status = "missed".toList then call.createdAt else call.endedAt
  { source := "call".toList
    sortSeq := callSeq call
    id := call.id
    content := none
    createdAt := displayAt.map P.isoformat
    emotionLabel := none
    isRead := none
    triggerType := none
    deliveryStatus := none
    skippedInPrompt := none
    call := some
      { callId := some call.callId
        callStatus := some call.status
        durationSeconds := call.durationSeconds
        summaryStatus := some call.summaryStatus
        callSummary :=
          if call.summaryStatus = "ready".toList ∧ readable = true then call.callSummary else none }
    crisisResource := P.crisis call }

/-- `call_filter`: ended or missed, numbered and not deleted. -/
def isListed (userId : ℤ) (call : VoiceCall) : Bool :=
  decide (call.userId = userId ∧ (call.status = "ended".toList ∨ call.status = "missed".toList)) &&
  call.sortSeq.isSome && call.deletionFenceAt.isNone && call.deletedAt.isNone

def conversationsOf (db : Database) (userId : ℤ) : List ConversationLog :=
  db.conversations.filter fun row => decide (row.userId = userId)

def agentMessagesOf (db : Database) (userId : ℤ) : List AgentMessage :=
  db.agentMessages.filter fun row => decide (row.userId = userId)

def callsOf (db : Database) (userId : ℤ) : List VoiceCall :=
  if includeCalls then db.calls.filter (isListed userId) else []

/-- `select(…).where(…).order_by(desc(sort_seq)).limit(…)`. -/
def selectPage {α : Type} (key : α → ℤ) (cursor : Option ℤ) (limit : ℕ) (rows : List α) : List α :=
  (descending key (behind key cursor rows)).take limit

structure TimelinePage where
  items : List TimelineItem
  nextCursor : Option ℤ
  hasMore : Bool

/-- `get_timeline`. -/
def getTimeline (db : Database) (userId : ℤ) (cursor : Option ℤ) (limit : ℕ) : TimelinePage :=
  let fetchLimit := limit + 1
  let convRows := selectPage ConversationLog.sortSeq cursor fetchLimit (conversationsOf db userId)
  let agentRows := selectPage AgentMessage.sortSeq cursor fetchLimit (agentMessagesOf db userId)
  let calls := selectPage callSeq cursor fetchLimit (callsOf includeCalls db userId)
  let merged := convRows.map (timelineConvItem P includeCalls) ++
    agentRows.map (timelineAgentItem P includeCalls) ++ calls.map (timelineCallItem P)
  let hasMore := decide (limit < merged.length)
  let pageItems := ((descending TimelineItem.sortSeq merged).take limit).reverse
  ⟨pageItems, if hasMore then pageItems.head?.map TimelineItem.sortSeq else none, hasMore⟩

/-- Every row of the user, as an entry of a page. -/
def timelineItems (db : Database) (userId : ℤ) : List TimelineItem :=
  (conversationsOf db userId).map (timelineConvItem P includeCalls) ++
  (agentMessagesOf db userId).map (timelineAgentItem P includeCalls) ++
  (callsOf includeCalls db userId).map (timelineCallItem P)

/-- The pages that a client asks for one after the other. -/
def timelineSource (db : Database) (userId : ℤ) (limit : ℕ) (cursor : Option ℤ) :
    Page TimelineItem ℤ :=
  let page := getTimeline P includeCalls db userId cursor limit
  ⟨page.items, page.nextCursor⟩

/-! ### What a page shows -/

variable {P includeCalls}

/-- A query for rows gives the entries that a query for entries would. -/
theorem map_selectPage {α : Type} (item : α → TimelineItem) (cursor : Option ℤ) (limit : ℕ)
    (rows : List α) :
    (selectPage (fun row => (item row).sortSeq) cursor limit rows).map item =
      (descending TimelineItem.sortSeq (behind TimelineItem.sortSeq cursor (rows.map item))).take
        limit := by
  rw [selectPage, List.map_take, map_descending, map_behind]

/-- Of three limited lists the merged one shows the top of all rows, and whether there are more. -/
theorem sameTop_merged {limit : ℕ} {xs ys zs : List TimelineItem}
    (h : ((xs ++ ys ++ zs).map TimelineItem.sortSeq).Nodup) :
    SameTop TimelineItem.sortSeq limit
        ((descending TimelineItem.sortSeq xs).take (limit + 1) ++
          (descending TimelineItem.sortSeq ys).take (limit + 1) ++
          (descending TimelineItem.sortSeq zs).take (limit + 1)) (xs ++ ys ++ zs) := by
  have hperm := ((descending_perm TimelineItem.sortSeq xs).append
    (descending_perm TimelineItem.sortSeq ys)).append (descending_perm TimelineItem.sortSeq zs)
  have hsub := ((List.take_sublist (limit + 1) (descending TimelineItem.sortSeq xs)).append
    (List.take_sublist (limit + 1) (descending TimelineItem.sortSeq ys))).append
    (List.take_sublist (limit + 1) (descending TimelineItem.sortSeq zs))
  have hnodup := ((hperm.map TimelineItem.sortSeq).nodup_iff.mpr h).sublist
    (hsub.map TimelineItem.sortSeq)
  simp only [List.map_append] at h hnodup
  have hx := (List.nodup_append.mp (List.nodup_append.mp h).1)
  have hz := (List.nodup_append.mp h).2.1
  refine SameTop.append (SameTop.append (sameTop_limited (by omega) hx.1)
    (sameTop_limited (by omega) hx.2.1) ?_ ?_) (sameTop_limited (by omega) hz) ?_ ?_
  · rw [List.map_append]
    exact (List.nodup_append.mp hnodup).1
  · rw [List.map_append]
    exact (List.nodup_append.mp h).1
  · simpa only [List.map_append] using hnodup
  · simpa only [List.map_append] using h

/-- The entries behind a cursor, table by table. -/
theorem behind_timelineItems (db : Database) (userId : ℤ) (cursor : Option ℤ) :
    behind TimelineItem.sortSeq cursor (timelineItems P includeCalls db userId) =
      behind TimelineItem.sortSeq cursor
        ((conversationsOf db userId).map (timelineConvItem P includeCalls)) ++
      behind TimelineItem.sortSeq cursor
        ((agentMessagesOf db userId).map (timelineAgentItem P includeCalls)) ++
      behind TimelineItem.sortSeq cursor
        ((callsOf includeCalls db userId).map (timelineCallItem P)) := by
  simp only [timelineItems, behind, List.filter_append]

variable {db : Database} {userId : ℤ}

/-- What is merged for a page. -/
theorem merged_eq (cursor : Option ℤ) (limit : ℕ) :
    (selectPage ConversationLog.sortSeq cursor limit (conversationsOf db userId)).map
        (timelineConvItem P includeCalls) ++
      (selectPage AgentMessage.sortSeq cursor limit (agentMessagesOf db userId)).map
        (timelineAgentItem P includeCalls) ++
      (selectPage callSeq cursor limit (callsOf includeCalls db userId)).map
        (timelineCallItem P) =
      (descending TimelineItem.sortSeq (behind TimelineItem.sortSeq cursor
          ((conversationsOf db userId).map (timelineConvItem P includeCalls)))).take limit ++
        (descending TimelineItem.sortSeq (behind TimelineItem.sortSeq cursor
          ((agentMessagesOf db userId).map (timelineAgentItem P includeCalls)))).take limit ++
        (descending TimelineItem.sortSeq (behind TimelineItem.sortSeq cursor
          ((callsOf includeCalls db userId).map (timelineCallItem P)))).take limit := by
  rw [← map_selectPage, ← map_selectPage, ← map_selectPage]
  rfl

/-- A page holds the entries of the user that come next, and more is to come if there are more. -/
theorem getTimeline_spec (hnodup : ((timelineItems P includeCalls db userId).map
      TimelineItem.sortSeq).Nodup) (cursor : Option ℤ) (limit : ℕ) :
    let next := behind TimelineItem.sortSeq cursor
      (descending TimelineItem.sortSeq (timelineItems P includeCalls db userId))
    let page := getTimeline P includeCalls db userId cursor limit
    page.items = (next.take limit).reverse ∧
      page.hasMore = decide (limit < next.length) ∧
      page.nextCursor = if limit < next.length then
        (next.take limit).getLast?.map TimelineItem.sortSeq else none := by
  intro next page
  have hbehind : ((behind TimelineItem.sortSeq cursor
      (timelineItems P includeCalls db userId)).map TimelineItem.sortSeq).Nodup :=
    hnodup.sublist (List.filter_sublist.map TimelineItem.sortSeq)
  have hnext : next = descending TimelineItem.sortSeq
      (behind TimelineItem.sortSeq cursor (timelineItems P includeCalls db userId)) :=
    behind_descending hnodup
  rw [behind_timelineItems] at hnext hbehind
  have htop := @sameTop_merged limit _ _ _ hbehind
  have hitems : page.items = (next.take limit).reverse := by
    have hpage : page.items = ((descending TimelineItem.sortSeq _).take limit).reverse := rfl
    rw [hpage, merged_eq, hnext]
    exact congrArg List.reverse htop
  have hmore : page.hasMore = decide (limit < next.length) := by
    have hpage : page.hasMore = decide (limit < List.length _) := rfl
    rw [hpage, merged_eq, hnext, (descending_perm TimelineItem.sortSeq _).length_eq]
    simp only [List.length_append, List.length_take, (descending_perm TimelineItem.sortSeq _).length_eq,
      decide_eq_decide]
    omega
  refine ⟨hitems, hmore, ?_⟩
  have hcursor : page.nextCursor =
      if page.hasMore then page.items.head?.map TimelineItem.sortSeq else none := rfl
  rw [hcursor, hmore, hitems, List.head?_reverse]
  simp only [decide_eq_true_eq]

/-- Following the cursors from the start visits every row of the user once, in pages that rise and lie
below the pages before them. -/
theorem timeline_complete (P : Presentation) (includeCalls : Bool) (db : Database) (userId : ℤ)
    (limit : ℕ) (hlimit : 1 ≤ limit)
    (hdistinct : ((timelineItems P includeCalls db userId).map TimelineItem.sortSeq).Nodup) :
    ∃ pages, Walked (timelineSource P includeCalls db userId limit) none pages ∧
      pages.flatten.Perm (timelineItems P includeCalls db userId) ∧
      (∀ page ∈ pages, page.Pairwise fun a b => a.sortSeq < b.sortSeq) ∧
      pages.Pairwise fun page later => ∀ a ∈ page, ∀ b ∈ later, b.sortSeq < a.sortSeq := by
  have hread : ∃ pages, Walked (timelineSource P includeCalls db userId limit) none pages ∧
      (pages.map List.reverse).flatten = behind TimelineItem.sortSeq none
        (descending TimelineItem.sortSeq (timelineItems P includeCalls db userId)) :=
    walked_lookahead hlimit (strictlyFalling_descending hdistinct)
      (fun c => (getTimeline_spec hdistinct c limit).1)
      (fun c => (getTimeline_spec hdistinct c limit).2.2) none
  obtain ⟨pages, hwalked, hpages⟩ := hread
  rw [behind_none] at hpages
  exact ⟨pages, hwalked, lookahead_complete hdistinct hpages⟩

/-- Three rows of three tables. -/
def sampleTables : Database where
  conversations := [⟨1, 7, "user".toList, "hi".toList, none, 3, none, none, some 0⟩]
  agentMessages := [⟨1, 7, "P2".toList, "morning".toList, false, 5, some 0⟩]
  calls := [⟨1, 7, "c1".toList, "ended".toList, some 4, some 0, some 0, some 60, "ready".toList,
    some "talked".toList, none, none, none⟩]

def samplePresentation : Presentation := ⟨0, fun _ => [], fun _ => none⟩

theorem timeline_complete_three :
    ∃ pages, Walked (timelineSource samplePresentation true sampleTables 7 2) none pages ∧
      pages.flatten.Perm (timelineItems samplePresentation true sampleTables 7) ∧
      (∀ page ∈ pages, page.Pairwise fun a b => a.sortSeq < b.sortSeq) ∧
      pages.Pairwise fun page later => ∀ a ∈ page, ∀ b ∈ later, b.sortSeq < a.sortSeq :=
  timeline_complete samplePresentation true sampleTables 7 2 (by decide) (by decide)

end CompanionBackend.Timelines
