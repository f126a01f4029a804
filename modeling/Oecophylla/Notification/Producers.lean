import Oecophylla.Ingestion.Jsonb
import Oecophylla.Notification.Envelope
import Oecophylla.Python.UuidText

namespace Oecophylla.Notification

open Ingestion (jsonb jsonbFields exists_jsonb_of_get get_jsonbFields)
open Python (uuidText)

/-!
# The producers of notification envelopes

The user, interaction and moderation services publish what the notification service consumes:

* `Action`, `publish` — a follow, a like, a comment or a moderation action and its envelope; those
  of the interaction service go through the `jsonb` column of its outbox;
* `Entitled` — who is to be notified of an action;
* `Agrees` — the consumer decodes the envelope, knows its event type and notifies exactly them;
* `agrees_iff` — for which actions that is the case.
-/

/-- `ResolveAction`. -/
inductive ResolveAction where
  | dismiss
  | hidePost
  | warnAuthor
  | banAuthor
  deriving DecidableEq, Repr

/-- `outcome_for(action).event_type`. -/
def ResolveAction.eventType : ResolveAction → String
  | .dismiss => "report_dismissed"
  | .hidePost => "post_hidden"
  | .warnAuthor => "author_warned"
  | .banAuthor => "author_banned"

/-- A report that is resolved, as `lock_report_for_resolve` reads it. -/
structure Report where
  id : Uuid
  postId : Uuid
  postAuthorId : Uuid
  deriving DecidableEq, Repr

/-- What a user does, and what the service adds to it.  Times are the texts that `chrono` writes,
    and the content of a comment is trimmed. -/
inductive Action where
  | follow (me id : Uuid) (followedAt : String)
  /-- `weight` is `None` for a float that JSON does not have. -/
  | like (me postId author : Uuid) (weight : Option Decimal)
  | comment (me postId author commentId : Uuid) (parentCommentId : Option Uuid) (content : String)
  | resolve (admin : Uuid) (action : ResolveAction) (locked : Report) (note : Option String)

/-- The fields that an envelope has besides its type and its data. -/
structure Stamp where
  eventId : Uuid
  occurredAt : String

/-- `Envelope<T>` as JSON. -/
def envelope (stamp : Stamp) (eventType producer : String) (data : Object) : Object :=
  [("event_id", .str (uuidText stamp.eventId)), ("event_type", .str eventType),
    ("event_version", .int 1), ("occurred_at", .str stamp.occurredAt), ("producer", .str producer),
    ("data", .obj data)]

/-- An id as JSON. -/
def idJson (id : Uuid) : Json := .str (uuidText id)

/-- An `Option` as JSON. -/
def optionJson {α : Type} (f : α → Json) : Option α → Json
  | some a => f a
  | none => .null

/-- `UserFollowed`. -/
def userFollowed (me id : Uuid) (followedAt : String) : Object :=
  [("follower_id", idJson me), ("followee_id", idJson id), ("followed_at", .str followedAt)]

/-- `ToggleData`; the client event id is the id of the behavior event. -/
def toggleData (stamp : Stamp) (me postId author : Uuid) (weight : Option Decimal) : Object :=
  [("user_id", idJson me), ("post_id", idJson postId), ("post_author_id", idJson author),
    ("client_event_id", idJson stamp.eventId), ("weight", optionJson .float weight)]

/-- `CommentData`, with a preview of 200 characters. -/
def commentData (stamp : Stamp) (me postId author commentId : Uuid)
    (parentCommentId : Option Uuid) (content : String) : Object :=
  [("commenter_id", idJson me), ("post_id", idJson postId), ("post_author_id", idJson author),
    ("comment_id", idJson commentId), ("parent_comment_id", optionJson idJson parentCommentId),
    ("content_preview", .str (String.ofList (content.toList.take 200))),
    ("client_event_id", idJson stamp.eventId)]

/-- `ModerationAction`. -/
def moderationAction (admin : Uuid) (locked : Report) (note : Option String) : Object :=
  [("actor_id", idJson admin), ("target_user_id", idJson locked.postAuthorId),
    ("target_post_id", idJson locked.postId), ("report_id", idJson locked.id),
    ("note", optionJson .str note)]

/-- `enqueue_outbox_events`: what the outbox stores is what is sent. -/
def throughOutbox (env : Object) : Option (Topic × Json) :=
  (jsonb (.obj env)).map fun v => (.interactions, v)

/-- The envelope that a service publishes, `none` when it rejects the action. -/
def publish (stamp : Stamp) : Action → Option (Topic × Json)
  | .follow me id followedAt =>
    if me = id then none
    else some (.userFollowed,
      .obj (envelope stamp "user.followed" "user-service" (userFollowed me id followedAt)))
  | .like me postId author weight =>
    throughOutbox (envelope stamp "liked" "interaction-service"
      (toggleData stamp me postId author weight))
  | .comment me postId author commentId parentCommentId content =>
    let eventType := if parentCommentId.isSome then "comment_replied" else "commented"
    throughOutbox (envelope stamp eventType "interaction-service"
      (commentData stamp me postId author commentId parentCommentId content))
  | .resolve admin action locked note =>
    some (.moderationAction,
      .obj (envelope stamp action.eventType "moderation-service"
        (moderationAction admin locked note)))

/-- Who is to be notified: the followed user, the author of the post, the author of the parent
    comment, the author whose post or account was acted on; nobody of what they did themselves, and
    nobody of a report that was dismissed. -/
def Entitled (authorOf : Uuid → Option Uuid) : Action → Uuid → Prop
  | .follow me id _, user => user = id ∧ user ≠ me
  | .like me _ author _, user => user = author ∧ user ≠ me
  | .comment me _ author _ parentCommentId _, user =>
    (parentCommentId.bind authorOf = some user ∨ author = user) ∧ user ≠ me
  | .resolve admin action locked _, user =>
    action ≠ .dismiss ∧ user = locked.postAuthorId ∧ user ≠ admin

/-- The ids that the consumer reads. -/
def Action.ids : Action → List Uuid
  | .follow me id _ => [me, id]
  | .like me postId author _ => [me, postId, author]
  | .comment me postId author commentId parentCommentId _ =>
    [me, postId, author, commentId] ++ parentCommentId.toList
  | .resolve admin _ locked _ => [admin, locked.postAuthorId, locked.postId]

section Agreement

variable (readUuid : Json → Option Uuid) (authorOf : Uuid → Option Uuid)

/-- The consumer of the topic decodes the envelope, knows its event type and notifies each of those
    who are entitled once, and nobody else. -/
def Agrees (a : Action) (topic : Topic) (v : Json) : Prop :=
  ∃ env, InboundEnvelope.decode v = some env ∧ env.eventType ∈ recognized topic ∧
    (((handle readUuid topic env).dispatches authorOf).map Dispatch.userId).Nodup ∧
    ∀ user, user ∈ ((handle readUuid topic env).dispatches authorOf).map Dispatch.userId
      ↔ Entitled authorOf a user

/-- No follow, and no action of an admin against themselves. -/
def Deliverable : Action → Prop
  | .follow _ _ _ => False
  | .like _ _ _ _ => True
  | .comment _ _ _ _ _ _ => True
  | .resolve admin action locked _ => action = .dismiss ∨ locked.postAuthorId ≠ admin

variable {readUuid authorOf}

/-! ### What the outbox keeps -/

/-- A text comes out of `jsonb` as it was. -/
theorem get_str_of_jsonb {o o' : Object} (h : jsonbFields o = some o') {name text : String}
    (hget : Object.get o name = some (.str text)) : Object.get o' name = some (.str text) := by
  obtain ⟨v, hv, hget'⟩ := exists_jsonb_of_get h hget
  simp only [jsonb, Option.ite_none_right_eq_some, Option.some.injEq] at hv
  rw [hget', ← hv.2]

/-- So does `null`. -/
theorem get_null_of_jsonb {o o' : Object} (h : jsonbFields o = some o') {name : String}
    (hget : Object.get o name = some .null) : Object.get o' name = some .null := by
  rw [get_jsonbFields h, hget]
  rfl

/-- An object comes out as its own stored form. -/
theorem get_obj_of_jsonb {o o' : Object} (h : jsonbFields o = some o') {name : String}
    {inner : Object} (hget : Object.get o name = some (.obj inner)) :
    ∃ inner', Object.get o' name = some (.obj inner') ∧ jsonbFields inner = some inner' := by
  obtain ⟨v, hv, hget'⟩ := exists_jsonb_of_get h hget
  simp only [jsonb] at hv
  obtain ⟨inner', hinner, rfl⟩ := Option.map_eq_some_iff.mp hv
  exact ⟨inner', hget', hinner⟩

/-- The type and the data of an envelope that went through the outbox. -/
theorem decode_throughOutbox {stamp : Stamp} {eventType producer : String} {data : Object}
    {topic : Topic} {v : Json}
    (h : throughOutbox (envelope stamp eventType producer data) = some (topic, v)) :
    topic = .interactions ∧ ∃ data', InboundEnvelope.decode v = some ⟨eventType, .obj data'⟩ ∧
      jsonbFields data = some data' := by
  obtain ⟨stored, hstored, heq⟩ := Option.map_eq_some_iff.mp h
  obtain ⟨rfl, rfl⟩ := Prod.mk.inj heq
  simp only [jsonb] at hstored
  obtain ⟨o', ho', rfl⟩ := Option.map_eq_some_iff.mp hstored
  have htype : Object.get o' "event_type" = some (.str eventType) := get_str_of_jsonb ho' rfl
  have hget : Object.get (envelope stamp eventType producer data) "data" = some (.obj data) := rfl
  obtain ⟨data', hdata, hinner⟩ := get_obj_of_jsonb ho' hget
  refine ⟨rfl, data', ?_, hinner⟩
  simp [InboundEnvelope.decode, structFields, htype, hdata]

/-- The consumer decodes what `Envelope` writes. -/
theorem decode_envelope (stamp : Stamp) (eventType producer : String) (data : Object) :
    InboundEnvelope.decode (.obj (envelope stamp eventType producer data))
      = some ⟨eventType, .obj data⟩ := rfl

/-! ### One action after the other -/

theorem uuidField_idJson {id : Uuid} (h : readUuid (idJson id) = some id) :
    uuidField readUuid (some (idJson id)) = some id := h

/-- The data of a like are decoded. -/
theorem decode_toggleData {stamp : Stamp} {me postId author : Uuid} {weight : Option Decimal}
    {data : Object} (hdata : jsonbFields (toggleData stamp me postId author weight) = some data)
    (hme : readUuid (idJson me) = some me) (hpost : readUuid (idJson postId) = some postId)
    (hauthor : readUuid (idJson author) = some author) :
    ToggleData.decode readUuid (.obj data) = some ⟨me, postId, author⟩ := by
  have huser : Object.get data "user_id" = some (idJson me) := get_str_of_jsonb hdata rfl
  have hpostId : Object.get data "post_id" = some (idJson postId) := get_str_of_jsonb hdata rfl
  have hauthorId : Object.get data "post_author_id" = some (idJson author) :=
    get_str_of_jsonb hdata rfl
  simp [ToggleData.decode, structFields, huser, hpostId, hauthorId, uuidField, hme, hpost, hauthor]

/-- So are those of a comment. -/
theorem decode_commentData {stamp : Stamp} {me postId author commentId : Uuid}
    {parentCommentId : Option Uuid} {content : String} {data : Object}
    (hdata : jsonbFields (commentData stamp me postId author commentId parentCommentId content)
      = some data)
    (hids : ∀ id ∈ [me, postId, author, commentId] ++ parentCommentId.toList,
      readUuid (idJson id) = some id) :
    CommentData.decode readUuid (.obj data) = some ⟨me, postId, author, commentId, parentCommentId,
      String.ofList (content.toList.take 200)⟩ := by
  have huser : Object.get data "commenter_id" = some (idJson me) := get_str_of_jsonb hdata rfl
  have hpostId : Object.get data "post_id" = some (idJson postId) := get_str_of_jsonb hdata rfl
  have hauthorId : Object.get data "post_author_id" = some (idJson author) :=
    get_str_of_jsonb hdata rfl
  have hcommentId : Object.get data "comment_id" = some (idJson commentId) :=
    get_str_of_jsonb hdata rfl
  have hpreview : Object.get data "content_preview"
      = some (.str (String.ofList (content.toList.take 200))) := get_str_of_jsonb hdata rfl
  have hparent : optionalUuidField readUuid (Object.get data "parent_comment_id")
      = some parentCommentId := by
    cases parentCommentId with
    | none =>
      rw [show Object.get data "parent_comment_id" = some .null from get_null_of_jsonb hdata rfl]
      rfl
    | some parent =>
      have hget : Object.get data "parent_comment_id" = some (idJson parent) :=
        get_str_of_jsonb hdata rfl
      rw [hget]
      show (readUuid (idJson parent)).map some = _
      rw [hids parent (by simp)]
      rfl
  have hme := hids me (by simp)
  have hpost := hids postId (by simp)
  have hauthor := hids author (by simp)
  have hcomment := hids commentId (by simp)
  simp [CommentData.decode, structFields, huser, hpostId, hauthorId, hcommentId, hpreview, hparent,
    uuidField, textField, hme, hpost, hauthor, hcomment]

theorem decode_moderationAction {admin : Uuid} {locked : Report} {note : Option String}
    (hadmin : readUuid (idJson admin) = some admin)
    (hauthor : readUuid (idJson locked.postAuthorId) = some locked.postAuthorId)
    (hpost : readUuid (idJson locked.postId) = some locked.postId) :
    ModerationActionData.decode readUuid (.obj (moderationAction admin locked note))
      = some ⟨admin, locked.postAuthorId, some locked.postId⟩ := by
  have hoptional : optionalUuidField readUuid (some (idJson locked.postId))
      = some (some locked.postId) := by
    show (readUuid (idJson locked.postId)).map some = _
    rw [hpost]
    rfl
  show (do some (ModerationActionData.mk (← uuidField readUuid (some (idJson admin)))
    (← uuidField readUuid (some (idJson locked.postAuthorId)))
    (← optionalUuidField readUuid (some (idJson locked.postId))))) = _
  rw [uuidField_idJson hadmin, uuidField_idJson hauthor, hoptional]
  rfl

/-- A follow is published under a type that its consumer leaves out. -/
theorem not_agrees_follow {stamp : Stamp} {me id : Uuid} {followedAt : String} {topic : Topic}
    {v : Json} (hpublish : publish stamp (.follow me id followedAt) = some (topic, v)) :
    ¬ Agrees readUuid authorOf (.follow me id followedAt) topic v := by
  simp only [publish, Option.ite_none_left_eq_some, Option.some.injEq, Prod.mk.injEq] at hpublish
  obtain ⟨-, rfl, rfl⟩ := hpublish
  rintro ⟨env, hdecode, hrecognized, -⟩
  rw [decode_envelope] at hdecode
  obtain rfl := Option.some.inj hdecode
  have hunknown : "user.followed" ∉ recognized .userFollowed := by decide
  exact hunknown hrecognized

/-- A like reaches those entitled, and nobody else. -/
theorem agrees_like {stamp : Stamp} {me postId author : Uuid} {weight : Option Decimal}
    {topic : Topic} {v : Json}
    (hids : ∀ id ∈ [me, postId, author], readUuid (idJson id) = some id)
    (hpublish : publish stamp (.like me postId author weight) = some (topic, v)) :
    Agrees readUuid authorOf (.like me postId author weight) topic v := by
  obtain ⟨rfl, data, hdecode, hdata⟩ := decode_throughOutbox hpublish
  have hrecognized : "liked" ∈ recognized .interactions := by decide
  refine ⟨_, hdecode, hrecognized, nodup_recipients readUuid authorOf _ _, fun user => ?_⟩
  have htoggle := decode_toggleData hdata (hids me (by simp)) (hids postId (by simp))
    (hids author (by simp))
  have hhandle : handle readUuid .interactions ⟨"liked", .obj data⟩
      = if me = author then .dispatching []
        else .dispatching [⟨author, "liked", some me, some postId, none, .obj []⟩] := by
    show handleInteraction readUuid ⟨"liked", .obj data⟩ = _
    unfold handleInteraction
    simp only [show interactionKind "liked" = some .liked from rfl, htoggle]
  rw [hhandle]
  show _ ↔ user = author ∧ user ≠ me
  split
  · next heq =>
    simp only [Handling.dispatches, List.map_nil, List.not_mem_nil, false_iff]
    rintro ⟨rfl, hne⟩
    exact hne heq.symm
  · next hne =>
    simp only [Handling.dispatches, List.map_cons, List.map_nil, List.mem_singleton]
    constructor
    · rintro rfl
      exact ⟨rfl, fun heq => hne heq.symm⟩
    · exact And.left

/-- So does a comment, and a reply. -/
theorem agrees_comment {stamp : Stamp} {me postId author commentId : Uuid}
    {parentCommentId : Option Uuid} {content : String} {topic : Topic} {v : Json}
    (hids : ∀ id ∈ [me, postId, author, commentId] ++ parentCommentId.toList,
      readUuid (idJson id) = some id)
    (hpublish : publish stamp (.comment me postId author commentId parentCommentId content)
      = some (topic, v)) :
    Agrees readUuid authorOf (.comment me postId author commentId parentCommentId content)
      topic v := by
  obtain ⟨rfl, data, hdecode, hdata⟩ := decode_throughOutbox hpublish
  have hcomment := decode_commentData hdata hids
  have hrecipients : ∀ parentAuthor user, user ∈ (commentDispatches ⟨me, postId, author, commentId,
      parentCommentId, String.ofList (content.toList.take 200)⟩ parentAuthor).map Dispatch.userId
      ↔ (parentAuthor = some user ∨ author = user) ∧ user ≠ me := by
    intro parentAuthor user
    rw [map_userId_commentDispatches]
    exact mem_commentRecipients
  cases parentCommentId with
  | none =>
    have hrecognized : "commented" ∈ recognized .interactions := by decide
    refine ⟨_, hdecode, hrecognized, nodup_recipients readUuid authorOf _ _, fun user => ?_⟩
    have hhandle : handle readUuid .interactions ⟨"commented", .obj data⟩
        = .dispatching (commentDispatches ⟨me, postId, author, commentId, none,
          String.ofList (content.toList.take 200)⟩ none) := by
      show handleInteraction readUuid ⟨"commented", .obj data⟩ = _
      unfold handleInteraction
      simp only [show interactionKind "commented" = some .commented from rfl, hcomment]
    show user ∈ ((handle readUuid .interactions ⟨"commented", .obj data⟩).dispatches authorOf).map
      Dispatch.userId ↔ _
    rw [hhandle]
    exact hrecipients none user
  | some parent =>
    have hrecognized : "comment_replied" ∈ recognized .interactions := by decide
    refine ⟨_, hdecode, hrecognized, nodup_recipients readUuid authorOf _ _, fun user => ?_⟩
    have hhandle : handle readUuid .interactions ⟨"comment_replied", .obj data⟩
        = .looking ⟨me, postId, author, commentId, some parent,
          String.ofList (content.toList.take 200)⟩ parent := by
      show handleInteraction readUuid ⟨"comment_replied", .obj data⟩ = _
      unfold handleInteraction
      simp only [show interactionKind "comment_replied" = some .replied from rfl, hcomment]
    show user ∈ ((handle readUuid .interactions ⟨"comment_replied", .obj data⟩).dispatches
      authorOf).map Dispatch.userId ↔ _
    rw [hhandle]
    exact hrecipients (authorOf parent) user

theorem agrees_resolve_iff {stamp : Stamp} {admin : Uuid} {action : ResolveAction} {locked : Report}
    {note : Option String} {topic : Topic} {v : Json}
    (hids : ∀ id ∈ [admin, locked.postAuthorId, locked.postId], readUuid (idJson id) = some id)
    (hpublish : publish stamp (.resolve admin action locked note) = some (topic, v)) :
    Agrees readUuid authorOf (.resolve admin action locked note) topic v
      ↔ action = .dismiss ∨ locked.postAuthorId ≠ admin := by
  obtain ⟨rfl, rfl⟩ := Prod.mk.inj (Option.some.inj hpublish)
  have hdata : ModerationActionData.decode readUuid (.obj (moderationAction admin locked note)) = _ :=
    decode_moderationAction (hids admin (by simp)) (hids locked.postAuthorId (by simp))
      (hids locked.postId (by simp))
  have hrecognized : action.eventType ∈ recognized .moderationAction := by cases action <;> decide
  by_cases hdismiss : action = .dismiss
  · subst hdismiss
    simp only [true_or, iff_true]
    refine ⟨_, decode_envelope _ _ _ _, hrecognized, nodup_recipients readUuid authorOf _ _, ?_⟩
    intro user
    show user ∈ [] ↔ _
    simp [Entitled]
  · have hhandle : handle readUuid .moderationAction
        ⟨action.eventType, .obj (moderationAction admin locked note)⟩
        = .dispatching [⟨locked.postAuthorId, action.eventType, none, some locked.postId, none,
          .obj []⟩] := by
      show handleModerationAction readUuid _ = _
      unfold handleModerationAction
      have hkind : action.eventType ∈ moderationKinds := by
        cases action with
        | dismiss => exact absurd rfl hdismiss
        | _ => decide
      simp only [hkind, if_true, hdata]
    simp only [hdismiss, false_or]
    constructor
    · rintro ⟨env, hdecode, -, -, hrecipients⟩
      rw [decode_envelope] at hdecode
      obtain rfl := Option.some.inj hdecode
      rw [hhandle] at hrecipients
      exact ((hrecipients locked.postAuthorId).mp (List.mem_singleton.mpr rfl)).2.2
    · intro hne
      refine ⟨_, decode_envelope _ _ _ _, hrecognized, nodup_recipients readUuid authorOf _ _, ?_⟩
      intro user
      rw [hhandle]
      simp only [Handling.dispatches, List.map_cons, List.map_nil, List.mem_singleton, Entitled]
      constructor
      · rintro rfl
        exact ⟨hdismiss, rfl, hne⟩
      · exact fun h => h.2.1

/-- **Producers and consumer agree** on a published action exactly when it is no follow and no
    action of an admin against themselves. -/
theorem agrees_iff (readUuid : Json → Option Uuid) (authorOf : Uuid → Option Uuid) (stamp : Stamp)
    (a : Action) (topic : Topic) (v : Json) (hids : ∀ id ∈ a.ids, readUuid (idJson id) = some id)
    (hpublish : publish stamp a = some (topic, v)) :
    Agrees readUuid authorOf a topic v ↔ Deliverable a := by
  cases a with
  | follow me id followedAt => exact iff_of_false (not_agrees_follow hpublish) not_false
  | like me postId author weight => exact iff_of_true (agrees_like hids hpublish) trivial
  | comment me postId author commentId parentCommentId content =>
    exact iff_of_true (agrees_comment hids hpublish) trivial
  | resolve admin action locked note => exact agrees_resolve_iff hids hpublish

end Agreement

/-! ### Published actions -/

/-- The ids of the examples, read from their texts. -/
private def readsExamples : Json → Option Uuid
  | .str text => [1, 2, 3, 4, 5].find? fun id => uuidText id = text
  | _ => none

private def exampleStamp : Stamp := ⟨9, "2026-10-01T08:00:00Z"⟩

private def exampleReply : Action := .comment 1 2 3 4 (some 5) "hay quá"

private theorem exampleReply_published : (publish exampleStamp exampleReply).isSome := by
  decide +kernel

theorem agrees_reply :
    Agrees readsExamples (fun _ => some 2) exampleReply
      ((publish exampleStamp exampleReply).get exampleReply_published).1
      ((publish exampleStamp exampleReply).get exampleReply_published).2 :=
  (agrees_iff readsExamples (fun _ => some 2) exampleStamp exampleReply _ _ (by decide +kernel)
    (Option.some_get exampleReply_published).symm).mpr trivial

private def exampleFollow : Action := .follow 1 2 "2026-10-01T08:00:00Z"

private theorem exampleFollow_published : (publish exampleStamp exampleFollow).isSome := by
  decide +kernel

/-- User 1 follows user 2, who is not notified. -/
theorem not_agrees_user_followed :
    ¬ ∀ (readUuid : Json → Option Uuid) (authorOf : Uuid → Option Uuid) (stamp : Stamp) (a : Action)
      (topic : Topic) (v : Json), (∀ id ∈ a.ids, readUuid (idJson id) = some id) →
      publish stamp a = some (topic, v) → Agrees readUuid authorOf a topic v := by
  intro h
  have hagrees := h readsExamples (fun _ => none) exampleStamp exampleFollow _ _
    (by decide +kernel) (Option.some_get exampleFollow_published).symm
  exact not_agrees_follow (Option.some_get exampleFollow_published).symm hagrees

end Oecophylla.Notification
