import Oecophylla.Interaction.Comments

namespace Oecophylla.Content

open Interaction.Comments (trim)

/-!
# The posts that content-service admits — `handlers.rs`, `update.rs`

* `CreatePostReq`, `createPost` — `create`, as far as the stored post is concerned;
* `UpdatePostInput`, `validateUpdatePost`, `validateOwnedUploads`, `updatePost` — `update_post`.
-/

/-- `AppError::Validation`. -/
structure ValidationError where
  field : String
  message : String
  deriving DecidableEq, Repr

/-- `CreatePostReq`. -/
structure CreatePostReq where
  content : String
  mediaUrls : List String
  tags : List String
  topics : List String
  deriving DecidableEq, Repr

/-- `UpdatePostInput`. -/
structure UpdatePostInput where
  content : Option String
  mediaUrls : Option (List String)
  tags : Option (List String)
  topics : Option (List String)
  deriving DecidableEq, Repr

/-- The columns of `posts` that the requests write. -/
structure Post where
  content : String
  mediaUrls : List String
  tags : List String
  topics : List String
  deriving DecidableEq, Repr

/-- `create`, up to `repo::insert`. -/
def createPost (body : CreatePostReq) : Except ValidationError Post :=
  let content := trim body.content
  if content = "" ∨ 4000 < content.length then .error ⟨"content", "1..=4000 chars"⟩
  else if 6 < body.mediaUrls.length ∨ body.mediaUrls.any fun url => !url.startsWith "https://" then
    .error ⟨"media_urls", "<=6 https urls"⟩
  else if 8 < body.tags.length then .error ⟨"tags", "<=8 tags"⟩
  else .ok ⟨content, body.mediaUrls, body.tags, body.topics⟩

/-- `validate_update_post(input)`. -/
def validateUpdatePost (input : UpdatePostInput) : Except ValidationError UpdatePostInput := do
  if input.content = none ∧ input.mediaUrls = none ∧ input.tags = none ∧ input.topics = none then
    throw ⟨"body", "at least one editable field is required"⟩
  let input ← match input.content with
    | none => pure input
    | some content =>
      if trim content = "" ∨ 4000 < (trim content).length then
        throw ⟨"content", "1..=4000 chars"⟩
      else
        pure { input with
          content := some (trim content)
          topics := some (input.topics.getD []) }
  if input.mediaUrls.any fun urls => decide (6 < urls.length) || urls.any fun url =>
      !url.startsWith "https://" && !url.startsWith "/api/v1/posts/" then
    throw ⟨"media_urls", "<=6 https urls or owned uploads"⟩
  if input.tags.any fun tags => 8 < tags.length then throw ⟨"tags", "<=8 tags"⟩
  if input.topics.any fun topics => 8 < topics.length then throw ⟨"topics", "<=8 topics"⟩
  pure input

/-- `validate_owned_uploads(media_urls, existing)`. -/
def validateOwnedUploads (mediaUrls : Option (List String)) (existing : List String) :
    Except ValidationError Unit :=
  if mediaUrls.any fun urls => urls.any fun url =>
      url.startsWith "/api/v1/posts/" && !existing.contains url then
    .error ⟨"media_urls", "uploaded images must belong to this post"⟩
  else .ok ()

/-- `repo::update`: `COALESCE` of each column. -/
def Post.coalesce (post : Post) (input : UpdatePostInput) : Post where
  content := input.content.getD post.content
  mediaUrls := input.mediaUrls.getD post.mediaUrls
  tags := input.tags.getD post.tags
  topics := input.topics.getD post.topics

/-- `update_post` of an existing post. -/
def updatePost (post : Post) (body : UpdatePostInput) : Except ValidationError Post := do
  let input ← validateUpdatePost body
  validateOwnedUploads input.mediaUrls post.mediaUrls
  pure (post.coalesce input)

end Oecophylla.Content
