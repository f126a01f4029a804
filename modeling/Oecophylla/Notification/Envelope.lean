import Oecophylla.Json

namespace Oecophylla.Notification

/-!
# Inbound envelopes of the notification service — `kafka.rs`

What the handlers of the three topics make of an envelope:

* `InboundEnvelope.decode`, `ToggleData.decode`, … — the deserializers that `serde` derives;
* `handleInteraction`, `handleUserFollowed`, `handleModerationAction` — up to their first query,
  the lookup of the author of a parent comment;
* `Handling.dispatches` — the notifications that the handler goes on to dispatch;
* `nodup_recipients` — nobody is notified twice by one envelope.

`readUuid` reads the id that a JSON value stands for, as `serde_json::from_value` does.
-/

abbrev Uuid := Nat

/-! ### Deserializers -/

/-- The fields of a struct: those of an object by their names, or the items of an array in the
    order of the struct. -/
def structFields (names : List String) : Json → Option (List (Option Json))
  | .obj fields => some (names.map (Object.get fields))
  | .arr items => if items.length = names.length then some (items.map some) else none
  | _ => none

structure InboundEnvelope where
  eventType : String
  data : Json

/-- `serde_json::from_slice`; `event_type` has a default. -/
def InboundEnvelope.decode (v : Json) : Option InboundEnvelope :=
  match structFields ["event_type", "data"] v with
  | some [none, some data] => some ⟨"", data⟩
  | some [some (.str eventType), some data] => some ⟨eventType, data⟩
  | _ => none

structure ToggleData where
  userId : Uuid
  postId : Uuid
  postAuthorId : Uuid
  deriving DecidableEq, Repr

structure CommentData where
  commenterId : Uuid
  postId : Uuid
  postAuthorId : Uuid
  commentId : Uuid
  parentCommentId : Option Uuid
  contentPreview : String
  deriving DecidableEq, Repr

structure UserFollowedData where
  followerId : Uuid
  followeeId : Uuid
  deriving DecidableEq, Repr

structure ModerationActionData where
  actorId : Uuid
  targetUserId : Uuid
  targetPostId : Option Uuid
  deriving DecidableEq, Repr

section Decode

variable (readUuid : Json → Option Uuid)

/-- A required id. -/
def uuidField (field : Option Json) : Option Uuid := field.bind readUuid

/-- An `Option<Uuid>`: a missing field is `None`, like `null`. -/
def optionalUuidField : Option Json → Option (Option Uuid)
  | none => some none
  | some .null => some none
  | some v => (readUuid v).map some

/-- A required text. -/
def textField : Option Json → Option String
  | some (.str text) => some text
  | _ => none

def ToggleData.decode (v : Json) : Option ToggleData :=
  match structFields ["user_id", "post_id", "post_author_id"] v with
  | some [userId, postId, postAuthorId] => do
    some ⟨← uuidField readUuid userId, ← uuidField readUuid postId,
      ← uuidField readUuid postAuthorId⟩
  | _ => none

def CommentData.decode (v : Json) : Option CommentData :=
  match structFields ["commenter_id", "post_id", "post_author_id", "comment_id",
      "parent_comment_id", "content_preview"] v with
  | some [commenterId, postId, postAuthorId, commentId, parentCommentId, contentPreview] => do
    some ⟨← uuidField readUuid commenterId, ← uuidField readUuid postId,
      ← uuidField readUuid postAuthorId, ← uuidField readUuid commentId,
      ← optionalUuidField readUuid parentCommentId, ← textField contentPreview⟩
  | _ => none

def UserFollowedData.decode (v : Json) : Option UserFollowedData :=
  match structFields ["follower_id", "followee_id"] v with
  | some [followerId, followeeId] => do
    some ⟨← uuidField readUuid followerId, ← uuidField readUuid followeeId⟩
  | _ => none

def ModerationActionData.decode (v : Json) : Option ModerationActionData :=
  match structFields ["actor_id", "target_user_id", "target_post_id"] v with
  | some [actorId, targetUserId, targetPostId] => do
    some ⟨← uuidField readUuid actorId, ← uuidField readUuid targetUserId,
      ← optionalUuidField readUuid targetPostId⟩
  | _ => none

end Decode

/-! ### Handlers -/

/-- The arguments of `dispatch_notification`. -/
structure Dispatch where
  userId : Uuid
  kind : String
  actorId : Option Uuid
  postId : Option Uuid
  commentId : Option Uuid
  payload : Json

/-- What a handler does first. -/
inductive Handling where
  /-- It returns an error. -/
  | failed
  /-- It dispatches these notifications and returns. -/
  | dispatching (dispatches : List Dispatch)
  /-- It looks up the author of the parent comment. -/
  | looking (d : CommentData) (parentId : Uuid)

inductive InteractionKind where
  | liked
  | commented
  | replied
  deriving DecidableEq, Repr

def interactionKind (eventType : String) : Option InteractionKind :=
  if eventType = "liked" then some .liked
  else if eventType = "commented" then some .commented
  else if eventType = "comment_replied" ∨ eventType = "replied" then some .replied
  else none

def commentRecipients (commenter postAuthor : Uuid) (parentAuthor : Option Uuid) :
    List (Uuid × String) :=
  (match parentAuthor with
    | some parentAuthor => if parentAuthor ≠ commenter then [(parentAuthor, "replied")] else []
    | none => [])
  ++ (if postAuthor ≠ commenter ∧ some postAuthor ≠ parentAuthor then [(postAuthor, "commented")]
    else [])

/-- The notifications of a comment. -/
def commentDispatches (d : CommentData) (parentAuthor : Option Uuid) : List Dispatch :=
  (commentRecipients d.commenterId d.postAuthorId parentAuthor).map fun (recipient, kind) =>
    ⟨recipient, kind, some d.commenterId, some d.postId, some d.commentId,
      .obj [("preview", .str d.contentPreview)]⟩

section Handle

variable (readUuid : Json → Option Uuid)

def handleInteraction (env : InboundEnvelope) : Handling :=
  match interactionKind env.eventType with
  | some .liked =>
    match ToggleData.decode readUuid env.data with
    | none => .failed
    | some d =>
      if d.userId = d.postAuthorId then .dispatching []
      else .dispatching
        [⟨d.postAuthorId, "liked", some d.userId, some d.postId, none, .obj []⟩]
  | some .commented =>
    match CommentData.decode readUuid env.data with
    | none => .failed
    | some d => .dispatching (commentDispatches d none)
  | some .replied =>
    match CommentData.decode readUuid env.data with
    | none => .failed
    | some d =>
      match d.parentCommentId with
      | some id => .looking d id
      | none => .dispatching []
  | none => .dispatching []

def handleUserFollowed (env : InboundEnvelope) : Handling :=
  if env.eventType ≠ "followed" then .dispatching []
  else
    match UserFollowedData.decode readUuid env.data with
    | none => .failed
    | some d =>
      .dispatching [⟨d.followeeId, "followed", some d.followerId, none, none, .obj []⟩]

/-- The events that notify the target of a moderation action, by their own names. -/
def moderationKinds : List String := ["post_hidden", "author_warned", "author_banned"]

def handleModerationAction (env : InboundEnvelope) : Handling :=
  if env.eventType ∈ moderationKinds then
    match ModerationActionData.decode readUuid env.data with
    | none => .failed
    | some d =>
      .dispatching [⟨d.targetUserId, env.eventType, none, d.targetPostId, none, .obj []⟩]
  else .dispatching []

/-- The topics that the service subscribes to. -/
inductive Topic where
  | interactions
  | userFollowed
  | moderationAction
  deriving DecidableEq, Repr

/-- The handler of a topic. -/
def handle : Topic → InboundEnvelope → Handling
  | .interactions => handleInteraction readUuid
  | .userFollowed => handleUserFollowed readUuid
  | .moderationAction => handleModerationAction readUuid

end Handle

/-- The event types that the handler of a topic tells apart, to notify somebody or to leave them
    out on purpose. -/
def recognized : Topic → List String
  | .interactions => ["liked", "commented", "comment_replied", "replied", "saved", "shared",
      "hidden", "reported", "viewed"]
  | .userFollowed => ["followed"]
  | .moderationAction => moderationKinds ++ ["report_dismissed", "post_unhidden", "author_unbanned"]

/-- All notifications of a handler; `authorOf` is the author of a comment, if there is one. -/
def Handling.dispatches (authorOf : Uuid → Option Uuid) : Handling → List Dispatch
  | .failed => []
  | .dispatching dispatches => dispatches
  | .looking d parentId => commentDispatches d (authorOf parentId)

/-! ### Recipients -/

theorem map_userId_commentDispatches (d : CommentData) (parentAuthor : Option Uuid) :
    (commentDispatches d parentAuthor).map Dispatch.userId
      = (commentRecipients d.commenterId d.postAuthorId parentAuthor).map Prod.fst := by
  unfold commentDispatches
  rw [List.map_map]
  rfl

/-- The author of the parent comment and the author of the post, but not the commenter. -/
theorem mem_commentRecipients {commenter postAuthor user : Uuid} {parentAuthor : Option Uuid} :
    user ∈ (commentRecipients commenter postAuthor parentAuthor).map Prod.fst
      ↔ (parentAuthor = some user ∨ postAuthor = user) ∧ user ≠ commenter := by
  unfold commentRecipients
  rw [List.map_append, List.mem_append]
  have hpost : user ∈ (if postAuthor ≠ commenter ∧ some postAuthor ≠ parentAuthor then
      [(postAuthor, "commented")] else []).map Prod.fst
      ↔ user = postAuthor ∧ postAuthor ≠ commenter ∧ some postAuthor ≠ parentAuthor := by
    split
    · next h => simp [h]
    · next h => simp [h]
  rw [hpost]
  cases parentAuthor with
  | none =>
    simp only [List.map_nil, List.not_mem_nil]
    grind
  | some parent =>
    have hparent : user ∈ (if parent ≠ commenter then [(parent, "replied")] else []).map Prod.fst
        ↔ user = parent ∧ parent ≠ commenter := by
      split
      · next h => simp [h]
      · next h => simp [h]
    rw [hparent]
    grind

theorem nodup_commentRecipients (commenter postAuthor : Uuid) (parentAuthor : Option Uuid) :
    ((commentRecipients commenter postAuthor parentAuthor).map Prod.fst).Nodup := by
  unfold commentRecipients
  by_cases hpost : postAuthor ≠ commenter ∧ some postAuthor ≠ parentAuthor
  · rw [if_pos hpost]
    split
    · next parent =>
      have hne : parent ≠ postAuthor := fun h => hpost.2 (by rw [h])
      split
      · simp [hne]
      · simp
    · simp
  · rw [if_neg hpost, List.append_nil]
    split
    · split <;> simp
    · simp

/-- **Nobody is notified twice by one envelope.** -/
theorem nodup_recipients (readUuid : Json → Option Uuid) (authorOf : Uuid → Option Uuid)
    (topic : Topic) (env : InboundEnvelope) :
    (((handle readUuid topic env).dispatches authorOf).map Dispatch.userId).Nodup := by
  have hcomment : ∀ d parentAuthor,
      ((commentDispatches d parentAuthor).map Dispatch.userId).Nodup := by
    intro d parentAuthor
    rw [map_userId_commentDispatches]
    exact nodup_commentRecipients d.commenterId d.postAuthorId parentAuthor
  cases topic with
  | interactions =>
    show (((handleInteraction readUuid env).dispatches authorOf).map Dispatch.userId).Nodup
    unfold handleInteraction
    split
    · split
      · exact List.nodup_nil
      · split
        · exact List.nodup_nil
        · exact List.nodup_singleton _
    · split
      · exact List.nodup_nil
      · next d _ => exact hcomment d none
    · split
      · exact List.nodup_nil
      · next d _ =>
        split
        · next id _ => exact hcomment d (authorOf id)
        · exact List.nodup_nil
    · exact List.nodup_nil
  | userFollowed =>
    show (((handleUserFollowed readUuid env).dispatches authorOf).map Dispatch.userId).Nodup
    unfold handleUserFollowed
    split
    · exact List.nodup_nil
    · split
      · exact List.nodup_nil
      · exact List.nodup_singleton _
  | moderationAction =>
    show (((handleModerationAction readUuid env).dispatches authorOf).map Dispatch.userId).Nodup
    unfold handleModerationAction
    split
    · split
      · exact List.nodup_nil
      · exact List.nodup_singleton _
    · exact List.nodup_nil

end Oecophylla.Notification
