import CompanionBackend.KeysetPages
import CompanionBackend.ProviderEvents

/-!
# Pages of the feed

Posts are listed by the time they were scheduled for, the latest first. The cursor of a page is the
time of its last post, and the next page begins before that time: of posts that share a time those
behind the end of a page are never shown.
-/
namespace CompanionBackend.FeedPages

open ProviderEvents KeysetPages

structure FeedPost where
  id : ℕ
  contentText : Text
  hashtags : List Text
  imageUrls : List Text
  scheduledPublishTime : ℤ
  emotion : Option Text
  city : Option Text
  isVisible : ℤ
  generationStatus : Text
  baseLikes : ℤ
  likeMultiplier : ℤ
  realLikes : ℤ
  baseComments : ℤ
  commentMultiplier : ℤ
  deriving DecidableEq

structure FeedComment where
  id : ℕ
  postId : ℕ
  userId : ℤ
  isHidden : ℤ
  createdAt : ℤ
  content : Text
  replyToLxm : Bool
  lxmReply : Option Text
  lxmReplyAt : Option ℤ
  lxmReplyReadAt : Option ℤ
  deriving DecidableEq

structure FeedLike where
  postId : ℕ
  userId : ℤ
  deriving DecidableEq

structure Database where
  posts : List FeedPost
  comments : List FeedComment
  likes : List FeedLike

/-- What a user sees of a comment of his own. -/
structure CommentItem where
  id : ℕ
  content : Text
  replyToLxm : Bool
  lxmReply : Option Text
  lxmReplyAt : Option ℤ
  lxmReplyReadAt : Option ℤ
  deriving DecidableEq

/-- What a user sees of a post; likes and comments of his own only where there is a user. -/
structure FeedItem where
  id : ℕ
  contentText : Text
  hashtags : List Text
  imageUrls : List Text
  scheduledPublishTime : ℤ
  emotion : Option Text
  city : Text
  displayLikes : ℤ
  displayComments : ℤ
  userLiked : Option Bool
  comments : Option (List CommentItem)
  deriving DecidableEq

/-- A cursor as it is sent: nothing, the text of a time, or a text that is none. -/
inductive FeedCursor
  | empty
  | time (t : ℤ)
  | malformed
  deriving DecidableEq

def FeedCursor.bound : FeedCursor → Option ℤ
  | .time t => some t
  | _ => none

/-- The order in which the database returns rows: by falling time, and in any order where times are
shared. -/
structure FeedQuery where
  arrange : List FeedPost → List FeedPost
  perm : ∀ posts, (arrange posts).Perm posts
  falling : ∀ posts, Falling FeedPost.scheduledPublishTime (arrange posts)

def defaultPageSize : ℤ := 20
def maxPageSize : ℤ := 50

/-- `max(1, min(size or _DEFAULT_PAGE_SIZE, _MAX_PAGE_SIZE))`. -/
def feedSize (size : ℤ) : ℕ :=
  (max 1 (min (if size = 0 then defaultPageSize else size) maxPageSize)).toNat

theorem feedSize_pos (size : ℤ) : 0 < feedSize size := by
  unfold feedSize
  omega

def microsPerDay : ℤ := 86400 * 1000000

/-- `_RANGE_DAYS`. -/
def rangeDays (range : Text) : Option ℤ :=
  if range = "7d".toList then some 7
  else if range = "30d".toList then some 30
  else if range = "180d".toList then some 180
  else none

/-- A post that may be listed at a time, in the visible range. -/
def isListed (now : ℤ) (range : Text) (post : FeedPost) : Bool :=
  decide (post.scheduledPublishTime ≤ now ∧ post.isVisible = 1 ∧
    post.generationStatus = "ready".toList) &&
  (rangeDays range).all fun days => decide (now - days * microsPerDay ≤ post.scheduledPublishTime)

def listedPosts (db : Database) (now : ℤ) (range : Text) : List FeedPost :=
  db.posts.filter (isListed now range)

def displayLikes (post : FeedPost) : ℤ := post.baseLikes * post.likeMultiplier + post.realLikes

def displayComments (post : FeedPost) (realCount : ℕ) : ℤ :=
  post.baseComments * post.commentMultiplier + max 0 realCount

def commentItem (comment : FeedComment) : CommentItem :=
  ⟨comment.id, comment.content, comment.replyToLxm, comment.lxmReply, comment.lxmReplyAt,
    comment.lxmReplyReadAt⟩

/-- The user's comments on a post, in the order of their creation. -/
def commentsOn (db : Database) (userId : ℤ) (post : FeedPost) : List CommentItem :=
  (Rankings.sortBy FeedComment.createdAt (db.comments.filter fun comment =>
    decide (comment.postId = post.id ∧ comment.userId = userId ∧ comment.isHidden = 0))).map
      commentItem

def feedItem (db : Database) (userId : Option ℤ) (post : FeedPost) : FeedItem :=
  let comments := userId.map fun user => commentsOn db user post
  { id := post.id
    contentText := post.contentText
    hashtags := post.hashtags
    imageUrls := post.imageUrls
    scheduledPublishTime := post.scheduledPublishTime
    emotion := post.emotion
    city := post.city.getD []
    displayLikes := displayLikes post
    displayComments := displayComments post (comments.getD []).length
    userLiked := userId.map fun user => db.likes.any fun like =>
      decide (like.postId = post.id ∧ like.userId = user)
    comments := comments }

structure FeedPage where
  posts : List FeedItem
  nextCursor : Option FeedCursor

variable (Q : FeedQuery) (db : Database) (userId : Option ℤ) (now : ℤ) (range : Text)

/-- The rows of a page. -/
def selectPosts (cursor : Option FeedCursor) (size : ℤ) : List FeedPost :=
  (Q.arrange (behind FeedPost.scheduledPublishTime (cursor.bind FeedCursor.bound)
    (listedPosts db now range))).take (feedSize size)

/-- `list_feed`. -/
def listFeed (cursor : Option FeedCursor) (size : ℤ) : FeedPage :=
  let posts := selectPosts Q db now range cursor size
  { posts := posts.map (feedItem db userId)
    nextCursor := if posts.length = feedSize size then
      posts.getLast?.map fun post => .time post.scheduledPublishTime else none }

/-- The pages that a client asks for one after the other. -/
def feedSource (size : ℤ) (cursor : Option FeedCursor) : Page FeedItem FeedCursor :=
  let page := listFeed Q db userId now range cursor size
  ⟨page.posts, page.nextCursor⟩

/-- The same pages as rows, with times as cursors. -/
def postSource (size : ℤ) (cursor : Option ℤ) : Page FeedPost ℤ :=
  let posts := selectPosts Q db now range (cursor.map FeedCursor.time) size
  ⟨posts, if posts.length = feedSize size then
    posts.getLast?.map FeedPost.scheduledPublishTime else none⟩

theorem postSource_items (size : ℤ) (cursor : Option ℤ) :
    (postSource Q db now range size cursor).items = (Q.arrange
      (behind FeedPost.scheduledPublishTime cursor (listedPosts db now range))).take
        (feedSize size) := by
  cases cursor <;> rfl

theorem feedSource_next (size : ℤ) (cursor : Option ℤ) :
    (feedSource Q db userId now range size (cursor.map FeedCursor.time)).next =
      (postSource Q db now range size cursor).next.map FeedCursor.time := by
  simp only [feedSource, listFeed, postSource]
  split_ifs
  · rw [Option.map_map]
    rfl
  · rfl

/-- Following the cursors of the feed comes to an end, shows posts in falling order of their times and
no post twice, and shows all of them if and only if no page ends between posts of one time. -/
theorem feed_walked (size : ℤ) :
    ∃ pages, Walked (feedSource Q db userId now range size) none pages ∧
      (pages.flatten.Pairwise fun a b => b.scheduledPublishTime ≤ a.scheduledPublishTime) ∧
      pages.flatten.Subperm ((listedPosts db now range).map (feedItem db userId)) ∧
      (pages.flatten.Perm ((listedPosts db now range).map (feedItem db userId)) ↔
        Aligned (feedSize size)
          (fallingKeys FeedPost.scheduledPublishTime (listedPosts db now range))) := by
  obtain ⟨pages, hwalked, hfalling, hsub, hcomplete⟩ := walked_aligned (feedSize_pos size) Q.perm
    Q.falling (postSource_items Q db now range size) (fun _ => rfl) none
  rw [behind_none] at hsub hcomplete
  have hshown : (pages.map (List.map (feedItem db userId))).flatten =
      pages.flatten.map (feedItem db userId) := List.map_flatten.symm
  refine ⟨pages.map (List.map (feedItem db userId)),
    hwalked.map (fun _ => rfl) (feedSource_next Q db userId now range size), ?_, ?_, ?_⟩
  · rw [hshown]
    exact List.pairwise_map.mpr hfalling
  · obtain ⟨some, hsome, hlisted⟩ := hsub
    rw [hshown]
    exact ⟨some.map _, hsome.map _, hlisted.map _⟩
  · rw [hshown, ← hcomplete]
    refine ⟨fun h => hsub.perm_of_length_le ?_, fun h => h.map _⟩
    have hlength := h.symm.length_eq.le
    rwa [List.length_map, List.length_map] at hlength

/-- All posts are shown once and in falling order if and only if no page ends between posts of one
time. -/
theorem feed_complete_iff (Q : FeedQuery) (db : Database) (userId : Option ℤ) (now : ℤ) (range : Text)
    (size : ℤ) :
    (∃ pages, Walked (feedSource Q db userId now range size) none pages ∧
      pages.flatten.Perm ((listedPosts db now range).map (feedItem db userId)) ∧
      pages.flatten.Pairwise fun a b => b.scheduledPublishTime ≤ a.scheduledPublishTime) ↔
      Aligned (feedSize size)
        (fallingKeys FeedPost.scheduledPublishTime (listedPosts db now range)) := by
  obtain ⟨pages, hwalked, hfalling, -, hcomplete⟩ := feed_walked Q db userId now range size
  constructor
  · rintro ⟨pages', hwalked', hperm, -⟩
    rw [hwalked'.unique hwalked] at hperm
    exact hcomplete.mp hperm
  · exact fun haligned => ⟨pages, hwalked, hcomplete.mpr haligned, hfalling⟩

/-- Posts in the order that keeps rows of one time as they are stored. -/
def storedQuery : FeedQuery where
  arrange := descending FeedPost.scheduledPublishTime
  perm := descending_perm _
  falling := falling_descending _

def samplePost (id : ℕ) : FeedPost :=
  ⟨id, "hello".toList, [], [], 100, none, none, 1, "ready".toList, 0, 1, 0, 0, 1⟩

def samplePosts : Database := ⟨[samplePost 1, samplePost 2], [], []⟩

/-- Two posts of one time and pages of one post: the second is never shown. -/
theorem feed_loses_post :
    ¬ ∃ pages, Walked (feedSource storedQuery samplePosts none 200 "all".toList 1) none pages ∧
      pages.flatten.Perm ((listedPosts samplePosts 200 "all".toList).map (feedItem samplePosts none))
        ∧ pages.flatten.Pairwise fun a b => b.scheduledPublishTime ≤ a.scheduledPublishTime := by
  rintro ⟨pages, hwalked, hperm, -⟩
  have hnext : (feedSource storedQuery samplePosts none 200 "all".toList 1 none).next =
      some (.time 100) := by decide
  have hlast : (feedSource storedQuery samplePosts none 200 "all".toList 1
      (some (.time 100))).next = none := by decide
  have hshown := Walked.more hnext (Walked.last hlast)
  rw [hwalked.unique hshown] at hperm
  exact absurd hperm.length_eq (by decide)

end CompanionBackend.FeedPages
