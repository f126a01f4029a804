import Oecophylla.Content.Posts
import Oecophylla.Lib.Except
import Oecophylla.Python.UuidText

namespace Oecophylla.Content.Images

/-!
# The images of a post — `content-service`, `repo.rs` and `handlers.rs`

The author of a post uploads and deletes images and edits the post, from several connections.  The
requests are cut into their statements: an upload locks the post with `SELECT … FOR UPDATE`, the
`UPDATE` of a deletion and of an edit lock it too, and an edit checks its list against a post that it
read before.

* `step` — one statement of one connection;
* `Kept` — the list is short enough, and its local URLs are those of stored images;
* `KeepsImages` — the condition under which an edit writes no URL of a deleted image;
* `images_kept_iff` — runs that meet the condition are those that keep the images.
-/

/-- A UUID. -/
abbrev Uuid := BitVec 128

/-- `format!("/api/v1/posts/{post_id}/images/{image_id}")`. -/
def imageUrl (postId imageId : Uuid) : String :=
  "/api/v1/posts/" ++ Python.uuidText postId.toNat ++ "/images/" ++ Python.uuidText imageId.toNat

/-- How far a request is.  An upload draws its id when it begins; `deleted` and `removed` know whether
    the row of the image was there; `validated` remembers which images were deleted since the post
    was read. -/
inductive Tx where
  | uploading (imageId : Uuid)
  /-- The post is locked. -/
  | locked (imageId : Uuid) (mediaUrls : List String)
  | counted (imageId : Uuid)
  | inserted (imageId : Uuid)
  | appended (imageId : Uuid)
  | deleting (imageId : Uuid)
  | deleted (imageId : Uuid) (found : Bool)
  /-- The post is locked. -/
  | removed (imageId : Uuid) (found : Bool)
  | updating (body : UpdatePostInput)
  | validated (body : UpdatePostInput) (since : List Uuid)
  deriving DecidableEq, Repr

/-- The post and the ids of its rows in `post_images`, the ids that were drawn, and the requests of
    `n` connections. -/
structure State (n : Nat) where
  post : Post
  images : List Uuid
  drawn : List Uuid
  tx : Fin n → Option Tx

/-- One statement of a connection; `abort` ends a request that fails in any way. -/
inductive Action (n : Nat) where
  | upload (i : Fin n) (imageId : Uuid)
  | selectForUpdate (i : Fin n)
  | count (i : Fin n)
  | insert (i : Fin n)
  | append (i : Fin n)
  | deleteImage (i : Fin n) (imageId : Uuid)
  | delete (i : Fin n)
  | remove (i : Fin n)
  | commit (i : Fin n)
  | update (i : Fin n) (body : UpdatePostInput)
  | read (i : Fin n)
  | write (i : Fin n)
  | abort (i : Fin n)
  deriving DecidableEq, Repr

/-- What one request at a time can have: the lock of the post, the lock of an image, an id. -/
inductive Resource where
  | post
  | image (imageId : Uuid)
  | id (imageId : Uuid)
  deriving DecidableEq, Repr

/-- What a request has. -/
def Tx.has : Tx → List Resource
  | .uploading imageId => [.id imageId]
  | .locked imageId _ | .counted imageId | .inserted imageId | .appended imageId => [.post, .id imageId]
  | .deleting _ => []
  | .deleted imageId found => if found then [.image imageId] else []
  | .removed imageId found => if found then [.post, .image imageId] else [.post]
  | .updating _ => []
  | .validated _ _ => []

/-- The images that were deleted since an edit read the post. -/
def Tx.since : Tx → List Uuid
  | .validated _ since => since
  | _ => []

/-- An image is deleted while a request is under way. -/
def Tx.noteDeletion (imageId : Uuid) : Tx → Tx
  | .validated body since => .validated body (since ++ [imageId])
  | t => t

section Step

variable {n : Nat}

/-- No other request has a resource. -/
def Free (s : State n) (i : Fin n) (r : Resource) : Prop :=
  ∀ j, j ≠ i → ∀ t ∈ s.tx j, r ∉ t.has

instance (s : State n) (i : Fin n) (r : Resource) : Decidable (Free s i r) :=
  inferInstanceAs (Decidable (∀ j, j ≠ i → ∀ t ∈ s.tx j, _))

/-- The request of a connection goes on. -/
def State.set (s : State n) (i : Fin n) (t : Option Tx) : State n :=
  { s with tx := Function.update s.tx i t }

/-- An upload is committed. -/
def State.commitUpload (postId : Uuid) (s : State n) (i : Fin n) (imageId : Uuid) : State n :=
  { s.set i none with
    images := s.images ++ [imageId]
    post := { s.post with mediaUrls := s.post.mediaUrls ++ [imageUrl postId imageId] } }

/-- A deletion is committed: `array_remove`, and the row if it was there. -/
def State.commitDelete (postId : Uuid) (s : State n) (i : Fin n) (imageId : Uuid) (found : Bool) :
    State n :=
  { s with
    images := if found then s.images.filter (· ≠ imageId) else s.images
    post := { s.post with mediaUrls := s.post.mediaUrls.filter (· ≠ imageUrl postId imageId) }
    tx := fun j =>
      if j = i then none
      else if found then (s.tx j).map (Tx.noteDeletion imageId) else s.tx j }

/-- One statement; `none` when it is not the next one, has to wait, or makes the request fail. -/
def step (postId : Uuid) (s : State n) : Action n → Option (State n)
  | .upload i imageId =>
    -- `Uuid::now_v7` does not draw an id twice
    if (s.tx i).isNone ∧ imageId ∉ s.drawn then
      some { s.set i (some (.uploading imageId)) with drawn := s.drawn ++ [imageId] }
    else none
  | .selectForUpdate i =>
    match s.tx i with
    | some (.uploading imageId) =>
      if Free s i .post then some (s.set i (some (.locked imageId s.post.mediaUrls))) else none
    | _ => none
  | .count i =>
    match s.tx i with
    | some (.locked imageId mediaUrls) =>
      if 6 ≤ mediaUrls.length ∨ 6 ≤ s.images.length then none
      else some (s.set i (some (.counted imageId)))
    | _ => none
  | .insert i =>
    match s.tx i with
    | some (.counted imageId) => some (s.set i (some (.inserted imageId)))
    | _ => none
  | .append i =>
    match s.tx i with
    | some (.inserted imageId) => some (s.set i (some (.appended imageId)))
    | _ => none
  | .deleteImage i imageId =>
    if (s.tx i).isNone then some (s.set i (some (.deleting imageId))) else none
  | .delete i =>
    match s.tx i with
    | some (.deleting imageId) =>
      if Free s i (.image imageId) then
        some (s.set i (some (.deleted imageId (decide (imageId ∈ s.images)))))
      else none
    | _ => none
  | .remove i =>
    match s.tx i with
    | some (.deleted imageId found) =>
      if Free s i .post then some (s.set i (some (.removed imageId found))) else none
    | _ => none
  | .commit i =>
    match s.tx i with
    | some (.appended imageId) => some (s.commitUpload postId i imageId)
    | some (.removed imageId found) => some (s.commitDelete postId i imageId found)
    | _ => none
  | .update i body => if (s.tx i).isNone then some (s.set i (some (.updating body))) else none
  | .read i =>
    match s.tx i with
    | some (.updating body) =>
      match validateUpdatePost body with
      | .error _ => none
      | .ok body =>
        match validateOwnedUploads body.mediaUrls s.post.mediaUrls with
        | .error _ => none
        | .ok _ => some (s.set i (some (.validated body [])))
    | _ => none
  | .write i =>
    match s.tx i with
    | some (.validated body _) =>
      if Free s i .post then some { s.set i none with post := s.post.coalesce body } else none
    | _ => none
  | .abort i => if (s.tx i).isSome then some (s.set i none) else none

/-! ### Images that are kept -/

/-- A URL that the service serves itself. -/
def Local (url : String) : Prop := url.startsWith "/api/v1/posts/" = true

/-- **The images are kept**: the list is short enough, and every local URL in it is that of an image
    that is stored for the post. -/
def Kept (postId : Uuid) (s : State n) : Prop :=
  s.post.mediaUrls.length ≤ 6
    ∧ ∀ url ∈ s.post.mediaUrls, Local url → ∃ imageId ∈ s.images, url = imageUrl postId imageId

/-- **An edit keeps the images** when it writes no URL of an image whose deletion was committed after
    the edit had read the post. -/
def KeepsImages (postId : Uuid) (s : State n) : Action n → Prop
  | .write i => ∀ t ∈ s.tx i, match t with
    | .validated body since => ∀ urls ∈ body.mediaUrls, ∀ imageId ∈ since, imageUrl postId imageId ∉ urls
    | _ => True
  | _ => True

end Step

/-! ### URLs -/

/-- The URLs of the images of a post tell them apart. -/
theorem imageUrl_injective (postId : Uuid) : Function.Injective (imageUrl postId) := by
  intro a b h
  have htext := congrArg String.toList h
  unfold imageUrl at htext
  simp only [String.toList_append, List.append_assoc, List.append_cancel_left_eq,
    String.toList_inj] at htext
  exact BitVec.eq_of_toNat_eq (Python.uuidText_injective a.isLt b.isLt htext)

theorem local_imageUrl (postId imageId : Uuid) : Local (imageUrl postId imageId) := by
  unfold Local imageUrl
  rw [String.startsWith_string_iff]
  simp only [String.toList_append, List.append_assoc]
  exact List.prefix_append _ _

/-! ### What an edit has checked -/

/-- The list of an edit is not too long. -/
theorem length_le_of_validateUpdatePost {input body : UpdatePostInput}
    (h : validateUpdatePost input = .ok body) : ∀ urls ∈ body.mediaUrls, urls.length ≤ 6 := by
  obtain ⟨content, mediaUrls, tags, topics⟩ := input
  have hshort : (¬ mediaUrls.any fun urls => decide (6 < urls.length) || urls.any fun url =>
      !url.startsWith "https://" && !url.startsWith "/api/v1/posts/") →
      ∀ urls ∈ mediaUrls, urls.length ≤ 6 := by
    rintro hany urls hmem
    obtain rfl := Option.mem_def.mp hmem
    by_contra hlong
    refine hany ?_
    simp only [Option.any_some, Bool.or_eq_true, decide_eq_true_iff]
    exact Or.inl (by omega)
  unfold validateUpdatePost at h
  cases content with
  | none =>
    simp only [Lib.except_throw_bind, pure_bind, true_and] at h
    split_ifs at h with hempty hurls htags htopics
    obtain rfl := Lib.except_pure_eq_ok.mp h
    exact hshort hurls
  | some content =>
    simp only [Lib.except_throw_bind, pure_bind, reduceCtorEq, false_and, if_false] at h
    split_ifs at h with hcontent hurls htags htopics
    obtain rfl := Lib.except_pure_eq_ok.mp h
    exact hshort hurls

/-- The uploads in the list of an edit were in the list of the post. -/
theorem mem_of_validateOwnedUploads {mediaUrls : Option (List String)} {existing : List String}
    (h : validateOwnedUploads mediaUrls existing = .ok ()) :
    ∀ urls ∈ mediaUrls, ∀ url ∈ urls, Local url → url ∈ existing := by
  intro urls hurls url hmem hlocal
  obtain rfl := Option.mem_def.mp hurls
  unfold validateOwnedUploads at h
  split at h
  · cases h
  · next hany =>
    by_contra hforeign
    refine hany ?_
    rw [Option.any_some, List.any_eq_true]
    refine ⟨url, hmem, ?_⟩
    unfold Local at hlocal
    simp [hlocal, hforeign]

/-! ### What every open request knows -/

/-- The images that a request knows to be deleted, or deletes. -/
def Tx.spent : Tx → List Uuid
  | .validated _ since => since
  | .deleted imageId found | .removed imageId found => if found then [imageId] else []
  | _ => []

/-- What a request that has locked the post knows of its list. -/
def Tx.Sees (urls : List String) : Tx → Prop
  | .locked _ mediaUrls => mediaUrls = urls
  | .counted _ | .inserted _ | .appended _ => urls.length < 6
  | _ => True

/-- What an edit that is validated knows of its list. -/
def Tx.Checked (postId : Uuid) (images : List Uuid) : Tx → Prop
  | .validated body since =>
    (∀ urls ∈ body.mediaUrls, urls.length ≤ 6 ∧ ∀ url ∈ urls, Local url →
      ∃ imageId, (imageId ∈ images ∨ imageId ∈ since) ∧ url = imageUrl postId imageId)
    ∧ ∀ imageId ∈ since, imageId ∉ images
  | _ => True

section Invariant

variable {n : Nat} {postId : Uuid} {s t : State n}

/-- What holds for an open request. -/
structure TxSound (postId : Uuid) (s : State n) (t : Tx) : Prop where
  fresh : ∀ imageId, .id imageId ∈ t.has → imageId ∈ s.drawn ∧ imageId ∉ s.images
  spent : ∀ imageId ∈ t.spent, imageId ∈ s.drawn
  sees : t.Sees s.post.mediaUrls
  checked : t.Checked postId s.images

/-- Two requests do not have the same, and the one does not delete what the other uploads. -/
structure Apart (t t' : Tx) : Prop where
  has : ∀ r ∈ t.has, r ∉ t'.has
  spent : ∀ imageId, .id imageId ∈ t.has → imageId ∉ t'.spent

/-- The invariant. -/
structure Sound (postId : Uuid) (s : State n) : Prop where
  drawn : ∀ imageId ∈ s.images, imageId ∈ s.drawn
  tx : ∀ i, ∀ t ∈ s.tx i, TxSound postId s t
  apart : ∀ i j, i ≠ j → ∀ t ∈ s.tx i, ∀ t' ∈ s.tx j, Apart t t'

/-- What is known of the list is known under a lock. -/
theorem sees_of_not_has {u : Tx} (h : .post ∉ u.has) (urls : List String) : u.Sees urls := by
  cases u with
  | locked imageId mediaUrls => exact absurd List.mem_cons_self h
  | counted imageId => exact absurd List.mem_cons_self h
  | inserted imageId => exact absurd List.mem_cons_self h
  | appended imageId => exact absurd List.mem_cons_self h
  | _ => trivial

/-- Whose request is open after one connection went on. -/
theorem mem_set {i j : Fin n} {u : Tx} {new : Option Tx} :
    u ∈ (s.set i new).tx j ↔ j = i ∧ u ∈ new ∨ j ≠ i ∧ u ∈ s.tx j := by
  by_cases hij : j = i
  · subst hij
    simp [State.set]
  · simp [State.set, hij]

/-- A connection goes on: what its request gets it had before, or it is free. -/
theorem Sound.set (hs : Sound postId s) {i : Fin n} {new : Option Tx}
    (hhas : ∀ u ∈ new, ∀ r ∈ u.has,
      (∃ t ∈ s.tx i, r ∈ t.has) ∨ Free s i r ∧ ∀ imageId, r ≠ .id imageId)
    (hspent : ∀ u ∈ new, ∀ imageId ∈ u.spent,
      (∃ t ∈ s.tx i, imageId ∈ t.spent) ∨ imageId ∈ s.images)
    (hsees : ∀ u ∈ new, u.Sees s.post.mediaUrls)
    (hchecked : ∀ u ∈ new, u.Checked postId s.images) : Sound postId (s.set i new) := by
  have hfresh : ∀ u ∈ new, ∀ imageId, .id imageId ∈ u.has → ∃ t ∈ s.tx i, .id imageId ∈ t.has := by
    intro u hu imageId hid
    rcases hhas u hu _ hid with hold | ⟨-, hother⟩
    · exact hold
    · exact absurd rfl (hother imageId)
  -- what another request has is not in the new one
  have hothers : ∀ u ∈ new, ∀ j, j ≠ i → ∀ w ∈ s.tx j, Apart u w ∧ Apart w u := by
    intro u hu j hj w hw
    have hdisjoint : ∀ r ∈ u.has, r ∉ w.has := by
      intro r hr
      rcases hhas u hu r hr with ⟨t, ht, hold⟩ | ⟨hfree, -⟩
      · exact (hs.apart i j (Ne.symm hj) t ht w hw).has r hold
      · exact hfree j hj w hw
    refine ⟨⟨hdisjoint, fun imageId hid => ?_⟩, ⟨fun r hr hr' => hdisjoint r hr' hr, ?_⟩⟩
    · obtain ⟨t, ht, hold⟩ := hfresh u hu imageId hid
      exact (hs.apart i j (Ne.symm hj) t ht w hw).spent imageId hold
    · intro imageId hid hdeleted
      rcases hspent u hu imageId hdeleted with ⟨t, ht, hold⟩ | himage
      · exact (hs.apart j i hj w hw t ht).spent imageId hid hold
      · exact ((hs.tx j w hw).fresh imageId hid).2 himage
  refine ⟨hs.drawn, fun j u hu => ?_, fun j k hjk u hu w hw => ?_⟩
  · rcases mem_set.mp hu with ⟨-, hnew⟩ | ⟨-, hold⟩
    · refine ⟨fun imageId hid => ?_, fun imageId hdeleted => ?_, hsees u hnew, hchecked u hnew⟩
      · obtain ⟨t, ht, hid'⟩ := hfresh u hnew imageId hid
        exact (hs.tx i t ht).fresh imageId hid'
      · rcases hspent u hnew imageId hdeleted with ⟨t, ht, hdeleted'⟩ | himage
        · exact (hs.tx i t ht).spent imageId hdeleted'
        · exact hs.drawn imageId himage
    · have hsound := hs.tx j u hold
      exact ⟨hsound.fresh, hsound.spent, hsound.sees, hsound.checked⟩
  · rcases mem_set.mp hu with ⟨rfl, hunew⟩ | ⟨hj, huold⟩
    · rcases mem_set.mp hw with ⟨rfl, -⟩ | ⟨hk, hwold⟩
      · exact absurd rfl hjk
      · exact (hothers u hunew k hk w hwold).1
    · rcases mem_set.mp hw with ⟨rfl, hwnew⟩ | ⟨hk, hwold⟩
      · exact (hothers w hwnew j hj u huold).2
      · exact hs.apart j k hjk u huold w hwold

/-! ### What a statement can do -/

/-- The next stage of a request that changes neither the post nor its images. -/
inductive Goes (s : State n) (i : Fin n) : Option Tx → Prop where
  | lock (imageId : Uuid) (hi : s.tx i = some (.uploading imageId)) (hfree : Free s i .post) :
    Goes s i (some (.locked imageId s.post.mediaUrls))
  | count (imageId : Uuid) (mediaUrls : List String) (hi : s.tx i = some (.locked imageId mediaUrls))
    (hshort : mediaUrls.length < 6) : Goes s i (some (.counted imageId))
  | insert (imageId : Uuid) (hi : s.tx i = some (.counted imageId)) :
    Goes s i (some (.inserted imageId))
  | append (imageId : Uuid) (hi : s.tx i = some (.inserted imageId)) :
    Goes s i (some (.appended imageId))
  | deleteImage (imageId : Uuid) : Goes s i (some (.deleting imageId))
  | delete (imageId : Uuid) (hfree : Free s i (.image imageId)) :
    Goes s i (some (.deleted imageId (decide (imageId ∈ s.images))))
  | remove (imageId : Uuid) (found : Bool) (hi : s.tx i = some (.deleted imageId found))
    (hfree : Free s i .post) : Goes s i (some (.removed imageId found))
  | update (body : UpdatePostInput) : Goes s i (some (.updating body))
  | read (input body : UpdatePostInput) (hbody : validateUpdatePost input = .ok body)
    (howned : validateOwnedUploads body.mediaUrls s.post.mediaUrls = .ok ()) :
    Goes s i (some (.validated body []))
  | abort : Goes s i none

/-- What a statement can do: the one place where all statements are looked at. -/
inductive Moves (postId : Uuid) (s : State n) : Action n → State n → Prop where
  | goes (a : Action n) (i : Fin n) (new : Option Tx) (hgoes : Goes s i new)
    (hguard : KeepsImages postId s a) : Moves postId s a (s.set i new)
  | draws (i : Fin n) (imageId : Uuid) (hnew : imageId ∉ s.drawn) :
    Moves postId s (.upload i imageId)
      { s.set i (some (.uploading imageId)) with drawn := s.drawn ++ [imageId] }
  | uploads (i : Fin n) (imageId : Uuid) (hi : s.tx i = some (.appended imageId)) :
    Moves postId s (.commit i) (s.commitUpload postId i imageId)
  | deletes (i : Fin n) (imageId : Uuid) (found : Bool) (hi : s.tx i = some (.removed imageId found)) :
    Moves postId s (.commit i) (s.commitDelete postId i imageId found)
  | writes (i : Fin n) (body : UpdatePostInput) (since : List Uuid)
    (hi : s.tx i = some (.validated body since)) (hfree : Free s i .post) :
    Moves postId s (.write i) { s.set i none with post := s.post.coalesce body }

theorem moves_of_step {a : Action n} (ht : step postId s a = some t) : Moves postId s a t := by
  cases a with
  | upload i imageId =>
    unfold step at ht
    dsimp only at ht
    split at ht
    · next hnew =>
      rw [← Option.some.inj ht]
      exact .draws i imageId hnew.2
    · cases ht
  | selectForUpdate i =>
    unfold step at ht
    dsimp only at ht
    split at ht
    · next imageId hi =>
      split at ht
      · next hfree =>
        rw [← Option.some.inj ht]
        exact .goes _ i _ (.lock imageId hi hfree) trivial
      · cases ht
    · cases ht
  | count i =>
    unfold step at ht
    dsimp only at ht
    split at ht
    · next imageId mediaUrls hi =>
      split at ht
      · cases ht
      · next hshort =>
        rw [← Option.some.inj ht]
        exact .goes _ i _ (.count imageId mediaUrls hi (by omega)) trivial
    · cases ht
  | insert i =>
    unfold step at ht
    dsimp only at ht
    split at ht
    · next imageId hi =>
      rw [← Option.some.inj ht]
      exact .goes _ i _ (.insert imageId hi) trivial
    · cases ht
  | append i =>
    unfold step at ht
    dsimp only at ht
    split at ht
    · next imageId hi =>
      rw [← Option.some.inj ht]
      exact .goes _ i _ (.append imageId hi) trivial
    · cases ht
  | deleteImage i imageId =>
    unfold step at ht
    dsimp only at ht
    split at ht
    · rw [← Option.some.inj ht]
      exact .goes _ i _ (.deleteImage imageId) trivial
    · cases ht
  | delete i =>
    unfold step at ht
    dsimp only at ht
    split at ht
    · next imageId hi =>
      split at ht
      · next hfree =>
        rw [← Option.some.inj ht]
        exact .goes _ i _ (.delete imageId hfree) trivial
      · cases ht
    · cases ht
  | remove i =>
    unfold step at ht
    dsimp only at ht
    split at ht
    · next imageId found hi =>
      split at ht
      · next hfree =>
        rw [← Option.some.inj ht]
        exact .goes _ i _ (.remove imageId found hi hfree) trivial
      · cases ht
    · cases ht
  | commit i =>
    unfold step at ht
    dsimp only at ht
    split at ht
    · next imageId hi =>
      rw [← Option.some.inj ht]
      exact .uploads i imageId hi
    · next imageId found hi =>
      rw [← Option.some.inj ht]
      exact .deletes i imageId found hi
    · cases ht
  | update i body =>
    unfold step at ht
    dsimp only at ht
    split at ht
    · rw [← Option.some.inj ht]
      exact .goes _ i _ (.update body) trivial
    · cases ht
  | read i =>
    unfold step at ht
    dsimp only at ht
    split at ht
    · next input hi =>
      split at ht
      · cases ht
      · next body hbody =>
        split at ht
        · cases ht
        · next howned =>
          rw [← Option.some.inj ht]
          exact .goes _ i _ (.read input body hbody howned) trivial
    · cases ht
  | write i =>
    unfold step at ht
    dsimp only at ht
    split at ht
    · next body since hi =>
      split at ht
      · next hfree =>
        rw [← Option.some.inj ht]
        exact .writes i body since hi hfree
      · cases ht
    · cases ht
  | abort i =>
    unfold step at ht
    dsimp only at ht
    split at ht
    · rw [← Option.some.inj ht]
      exact .goes _ i _ .abort trivial
    · cases ht

/-! ### The invariant -/

/-- A request that holds what it held. -/
theorem Sound.advance (hs : Sound postId s) {i : Fin n} {u w : Tx} (hi : s.tx i = some u)
    (hhas : w.has = u.has) (hspent : w.spent = []) (hsees : w.Sees s.post.mediaUrls)
    (hchecked : w.Checked postId s.images) : Sound postId (s.set i (some w)) := by
  refine hs.set ?_ ?_ ?_ ?_
  · rintro _ ⟨⟩ r hr
    exact Or.inl ⟨u, hi, hhas ▸ hr⟩
  · rintro _ ⟨⟩ imageId hdeleted
    rw [hspent] at hdeleted
    cases hdeleted
  · rintro _ ⟨⟩
    exact hsees
  · rintro _ ⟨⟩
    exact hchecked

/-- A request that holds nothing. -/
theorem Sound.hold_nothing (hs : Sound postId s) {i : Fin n} {w : Tx} (hhas : w.has = [])
    (hspent : w.spent = []) (hchecked : w.Checked postId s.images) :
    Sound postId (s.set i (some w)) := by
  refine hs.set ?_ ?_ ?_ ?_
  · rintro _ ⟨⟩ r hr
    rw [hhas] at hr
    cases hr
  · rintro _ ⟨⟩ imageId hdeleted
    rw [hspent] at hdeleted
    cases hdeleted
  · rintro _ ⟨⟩
    exact sees_of_not_has (by simp [hhas]) _
  · rintro _ ⟨⟩
    exact hchecked

/-- A request ends. -/
theorem Sound.close (hs : Sound postId s) (i : Fin n) : Sound postId (s.set i none) := by
  refine hs.set ?_ ?_ ?_ ?_
  all_goals rintro _ ⟨⟩

/-- A request that goes on gets nothing that another one has, and an edit has checked its list. -/
theorem Goes.sound {i : Fin n} {new : Option Tx} (h : Goes s i new) (hs : Sound postId s)
    (hkept : Kept postId s) : Sound postId (s.set i new) := by
  cases h with
  | lock imageId hi hfree =>
    refine hs.set ?_ ?_ ?_ ?_
    · rintro _ ⟨⟩ r hr
      rcases List.mem_pair.mp hr with rfl | rfl
      · exact Or.inr ⟨hfree, nofun⟩
      · exact Or.inl ⟨_, hi, List.mem_cons_self⟩
    · rintro _ ⟨⟩ _ ⟨⟩
    · rintro _ ⟨⟩
      rfl
    · rintro _ ⟨⟩
      trivial
  | count imageId mediaUrls hi hshort =>
    have hsees : mediaUrls = s.post.mediaUrls := (hs.tx i _ hi).sees
    exact hs.advance hi rfl rfl (hsees ▸ hshort) trivial
  | insert imageId hi => exact hs.advance hi rfl rfl (hs.tx i _ hi).sees trivial
  | append imageId hi => exact hs.advance hi rfl rfl (hs.tx i _ hi).sees trivial
  | deleteImage imageId => exact hs.hold_nothing rfl rfl trivial
  | delete imageId hfree =>
    refine hs.set ?_ ?_ ?_ ?_
    · rintro _ ⟨⟩ r hr
      simp only [Tx.has] at hr
      split at hr
      · obtain rfl := List.mem_singleton.mp hr
        exact Or.inr ⟨hfree, nofun⟩
      · cases hr
    · rintro _ ⟨⟩ id hdeleted
      simp only [Tx.spent] at hdeleted
      split at hdeleted
      · next hfound =>
        obtain rfl := List.mem_singleton.mp hdeleted
        exact Or.inr (of_decide_eq_true hfound)
      · cases hdeleted
    · rintro _ ⟨⟩
      trivial
    · rintro _ ⟨⟩
      trivial
  | remove imageId found hi hfree =>
    refine hs.set ?_ ?_ ?_ ?_
    · rintro _ ⟨⟩ r hr
      cases found with
      | false =>
        obtain rfl := List.mem_singleton.mp hr
        exact Or.inr ⟨hfree, nofun⟩
      | true =>
        rcases List.mem_pair.mp hr with rfl | rfl
        · exact Or.inr ⟨hfree, nofun⟩
        · exact Or.inl ⟨_, hi, List.mem_cons_self⟩
    · rintro _ ⟨⟩ id hdeleted
      exact Or.inl ⟨_, hi, hdeleted⟩
    · rintro _ ⟨⟩
      trivial
    · rintro _ ⟨⟩
      trivial
  | update body => exact hs.hold_nothing rfl rfl trivial
  | read input body hbody howned =>
    refine hs.hold_nothing rfl rfl ⟨fun urls hurls => ?_, nofun⟩
    refine ⟨length_le_of_validateUpdatePost hbody urls hurls, fun url hmem hlocal => ?_⟩
    -- every upload of the list was in the list of the post, which is kept
    have hin := mem_of_validateOwnedUploads howned urls hurls url hmem hlocal
    obtain ⟨imageId, himage, hurl⟩ := hkept.2 url hin hlocal
    exact ⟨imageId, Or.inl himage, hurl⟩
  | abort => exact hs.close i

/-- An upload draws an id that nobody knows. -/
theorem Sound.draw (hs : Sound postId s) {i : Fin n} {imageId : Uuid} (hnew : imageId ∉ s.drawn) :
    Sound postId
      { s.set i (some (.uploading imageId)) with drawn := s.drawn ++ [imageId] } := by
  have hunknown : ∀ j, ∀ w ∈ s.tx j, .id imageId ∉ w.has ∧ imageId ∉ w.spent := by
    intro j w hw
    exact ⟨fun hid => hnew ((hs.tx j w hw).fresh imageId hid).1,
      fun hdeleted => hnew ((hs.tx j w hw).spent imageId hdeleted)⟩
  refine ⟨fun id himage => List.mem_append_left _ (hs.drawn id himage), fun j u hu => ?_,
    fun j k hjk u hu w hw => ?_⟩
  · rcases mem_set.mp hu with ⟨-, hdraw⟩ | ⟨-, hold⟩
    · obtain rfl := Option.some.inj hdraw
      refine ⟨fun id hid => ?_, nofun, trivial, trivial⟩
      obtain rfl : id = imageId := by simpa [Tx.has] using hid
      exact ⟨List.mem_append_right _ List.mem_cons_self, fun himage => hnew (hs.drawn id himage)⟩
    · have hsound := hs.tx j u hold
      exact ⟨fun id hid => ⟨List.mem_append_left _ (hsound.fresh id hid).1, (hsound.fresh id hid).2⟩,
        fun id hdeleted => List.mem_append_left _ (hsound.spent id hdeleted), hsound.sees,
        hsound.checked⟩
  · rcases mem_set.mp hu with ⟨rfl, hudraw⟩ | ⟨hj, huold⟩
    · rcases mem_set.mp hw with ⟨rfl, -⟩ | ⟨-, hwold⟩
      · exact absurd rfl hjk
      · obtain rfl := Option.some.inj hudraw
        refine ⟨fun r hr => ?_, fun id hid => ?_⟩
        · obtain rfl := List.mem_singleton.mp hr
          exact (hunknown k w hwold).1
        · obtain rfl : id = imageId := by simpa [Tx.has] using hid
          exact (hunknown k w hwold).2
    · rcases mem_set.mp hw with ⟨rfl, hwdraw⟩ | ⟨-, hwold⟩
      · obtain rfl := Option.some.inj hwdraw
        refine ⟨fun r hr hid => ?_, nofun⟩
        obtain rfl := List.mem_singleton.mp hid
        exact (hunknown j u huold).1 hr
      · exact hs.apart j k hjk u huold w hwold

/-- An upload that is committed has its id and the lock of the post for itself. -/
theorem Sound.commitUpload (hs : Sound postId s) {i : Fin n} {imageId : Uuid}
    (hi : s.tx i = some (.appended imageId)) : Sound postId (s.commitUpload postId i imageId) := by
  have hothers : ∀ j, ∀ w ∈ (s.commitUpload postId i imageId).tx j,
      w ∈ s.tx j ∧ Apart (.appended imageId) w := by
    intro j w hw
    rcases mem_set.mp hw with ⟨-, hnone⟩ | ⟨hj, hold⟩
    · cases hnone
    · exact ⟨hold, hs.apart i j (Ne.symm hj) _ hi w hold⟩
  have hid : .id imageId ∈ (Tx.appended imageId).has := List.mem_cons_of_mem _ List.mem_cons_self
  have hdrawn := (hs.tx i _ hi).fresh imageId hid
  refine ⟨fun id himage => ?_, fun j w hw => ?_, fun j k hjk u hu w hw => ?_⟩
  · rcases List.mem_append.mp himage with hold | hnew
    · exact hs.drawn id hold
    · obtain rfl := List.mem_singleton.mp hnew
      exact hdrawn.1
  · obtain ⟨hold, hapart⟩ := hothers j w hw
    have hsound := hs.tx j w hold
    refine ⟨fun id hfresh => ⟨(hsound.fresh id hfresh).1, fun himage => ?_⟩, hsound.spent, ?_, ?_⟩
    · rcases List.mem_append.mp himage with hstored | hnew
      · exact (hsound.fresh id hfresh).2 hstored
      · obtain rfl := List.mem_singleton.mp hnew
        exact hapart.has _ hid hfresh
    · exact sees_of_not_has (hapart.has _ List.mem_cons_self) _
    · have hspent := hapart.spent imageId hid
      cases w with
      | validated body since =>
        refine ⟨fun urls hurls => ⟨(hsound.checked.1 urls hurls).1, fun url hmem hlocal => ?_⟩, ?_⟩
        · obtain ⟨id, hid, hurl⟩ := (hsound.checked.1 urls hurls).2 url hmem hlocal
          exact ⟨id, hid.imp_left (List.mem_append_left _), hurl⟩
        · intro id hdeleted himage
          rcases List.mem_append.mp himage with hstored | hnew
          · exact hsound.checked.2 id hdeleted hstored
          · obtain rfl := List.mem_singleton.mp hnew
            exact hspent hdeleted
      | _ => trivial
  · exact hs.apart j k hjk u (hothers j u hu).1 w (hothers k w hw).1

section NoteDeletion

variable (imageId : Uuid) (w : Tx)

theorem has_noteDeletion : (w.noteDeletion imageId).has = w.has := by
  cases w <;> rfl

theorem spent_noteDeletion {id : Uuid} (h : id ∈ (w.noteDeletion imageId).spent) :
    id ∈ w.spent ∨ id = imageId := by
  cases w with
  | validated body since => exact (List.mem_append.mp h).imp_right List.mem_singleton.mp
  | _ => exact Or.inl h

/-- An edit remembers which image is gone. -/
theorem checked_noteDeletion {images : List Uuid} (h : w.Checked postId images) :
    (w.noteDeletion imageId).Checked postId (images.filter (· ≠ imageId)) := by
  cases w with
  | validated body since =>
    refine ⟨fun urls hurls => ⟨(h.1 urls hurls).1, fun url hmem hlocal => ?_⟩, ?_⟩
    · obtain ⟨id, hid, hurl⟩ := (h.1 urls hurls).2 url hmem hlocal
      refine ⟨id, ?_, hurl⟩
      by_cases hgone : id = imageId
      · exact Or.inr (List.mem_append_right _ (List.mem_singleton.mpr hgone))
      · exact hid.imp (fun hstored => List.mem_filter.mpr ⟨hstored, decide_eq_true hgone⟩)
          (List.mem_append_left _)
    · intro id hdeleted himage
      obtain ⟨hstored, hother⟩ := List.mem_filter.mp himage
      rcases List.mem_append.mp hdeleted with hbefore | hnow
      · exact h.2 id hbefore hstored
      · exact of_decide_eq_true hother (List.mem_singleton.mp hnow)
  | _ => trivial

end NoteDeletion

/-- A deletion that is committed had the lock of the post, and deletes no id of an upload. -/
theorem Sound.commitDelete (hs : Sound postId s) {i : Fin n} {imageId : Uuid} {found : Bool}
    (hi : s.tx i = some (.removed imageId found)) :
    Sound postId (s.commitDelete postId i imageId found) := by
  have hlock : .post ∈ (Tx.removed imageId found).has := by
    cases found <;> exact List.mem_cons_self
  cases found with
  | false =>
    have hothers : ∀ j, ∀ w ∈ (s.commitDelete postId i imageId false).tx j,
        j ≠ i ∧ w ∈ s.tx j := by
      intro j w hw
      simp only [State.commitDelete] at hw
      split at hw
      · cases hw
      · next hj => exact ⟨hj, hw⟩
    refine ⟨hs.drawn, fun j w hw => ?_, fun j k hjk u hu w hw => ?_⟩
    · obtain ⟨hj, hold⟩ := hothers j w hw
      have hsound := hs.tx j w hold
      refine ⟨hsound.fresh, hsound.spent, ?_, hsound.checked⟩
      exact sees_of_not_has ((hs.apart i j (Ne.symm hj) _ hi w hold).has _ hlock) _
    · exact hs.apart j k hjk u (hothers j u hu).2 w (hothers k w hw).2
  | true =>
    have hothers : ∀ j, ∀ w ∈ (s.commitDelete postId i imageId true).tx j,
        j ≠ i ∧ ∃ u ∈ s.tx j, w = u.noteDeletion imageId := by
      intro j w hw
      simp only [State.commitDelete, if_true] at hw
      split at hw
      · cases hw
      · next hj =>
        obtain ⟨u, hu, rfl⟩ := Option.map_eq_some_iff.mp hw
        exact ⟨hj, u, hu, rfl⟩
    have hdrawn : imageId ∈ s.drawn := (hs.tx i _ hi).spent imageId List.mem_cons_self
    refine ⟨fun id himage => hs.drawn id (List.mem_of_mem_filter himage), fun j w hw => ?_,
      fun j k hjk u hu w hw => ?_⟩
    · obtain ⟨hj, u, hu, rfl⟩ := hothers j w hw
      have hsound := hs.tx j u hu
      have hpost := (hs.apart i j (Ne.symm hj) _ hi u hu).has _ hlock
      refine ⟨fun id hid => ?_, fun id hdeleted => ?_, ?_, checked_noteDeletion imageId u hsound.checked⟩
      · rw [has_noteDeletion] at hid
        exact ⟨(hsound.fresh id hid).1,
          fun himage => (hsound.fresh id hid).2 (List.mem_of_mem_filter himage)⟩
      · rcases spent_noteDeletion imageId u hdeleted with hbefore | rfl
        · exact hsound.spent id hbefore
        · exact hdrawn
      · exact sees_of_not_has (by rwa [has_noteDeletion]) _
    · obtain ⟨hj, u, huold, rfl⟩ := hothers j u hu
      obtain ⟨-, w, hwold, rfl⟩ := hothers k w hw
      have hapart := hs.apart j k hjk u huold w hwold
      refine ⟨fun r hr => ?_, fun id hid hdeleted => ?_⟩
      · rw [has_noteDeletion] at hr ⊢
        exact hapart.has r hr
      · rw [has_noteDeletion] at hid
        rcases spent_noteDeletion imageId w hdeleted with hbefore | rfl
        · exact hapart.spent id hid hbefore
        · exact (hs.apart j i hj u huold _ hi).spent id hid List.mem_cons_self

/-- An edit waits until nobody has the lock of the post. -/
theorem Sound.write (hs : Sound postId s) {i : Fin n} (hfree : Free s i .post) (post : Post) :
    Sound postId { s.set i none with post := post } := by
  have hothers : ∀ j, ∀ w ∈ (s.set i none).tx j, j ≠ i ∧ w ∈ s.tx j := by
    intro j w hw
    rcases mem_set.mp hw with ⟨-, hnone⟩ | hold
    · cases hnone
    · exact hold
  refine ⟨hs.drawn, fun j w hw => ?_, fun j k hjk u hu w hw => ?_⟩
  · obtain ⟨hj, hold⟩ := hothers j w hw
    have hsound := hs.tx j w hold
    exact ⟨hsound.fresh, hsound.spent, sees_of_not_has (hfree j hj w hold) _, hsound.checked⟩
  · exact hs.apart j k hjk u (hothers j u hu).2 w (hothers k w hw).2

/-- **The invariant lasts** while the images are kept. -/
theorem step_sound {a : Action n} (hs : Sound postId s) (hkept : Kept postId s)
    (ht : step postId s a = some t) : Sound postId t := by
  cases moves_of_step ht with
  | goes a i new hgoes => exact hgoes.sound hs hkept
  | draws i imageId hnew => exact hs.draw hnew
  | uploads i imageId hi => exact hs.commitUpload hi
  | deletes i imageId found hi => exact hs.commitDelete hi
  | writes i body since hi hfree => exact hs.write hfree _

/-! ### When the images are kept -/

/-- The URL of a committed upload is that of its image. -/
theorem Kept.commitUpload (hkept : Kept postId s) {imageId : Uuid}
    (hshort : s.post.mediaUrls.length < 6) (i : Fin n) :
    Kept postId (s.commitUpload postId i imageId) := by
  refine ⟨?_, fun url hmem hlocal => ?_⟩
  · show (s.post.mediaUrls ++ [imageUrl postId imageId]).length ≤ 6
    rw [List.length_append, List.length_singleton]
    omega
  · rcases List.mem_append.mp hmem with hold | hnew
    · obtain ⟨id, himage, hurl⟩ := hkept.2 url hold hlocal
      exact ⟨id, List.mem_append_left _ himage, hurl⟩
    · exact ⟨imageId, List.mem_append_right _ List.mem_cons_self, List.mem_singleton.mp hnew⟩

/-- A deletion removes the URL with the image. -/
theorem Kept.commitDelete (hkept : Kept postId s) (i : Fin n) (imageId : Uuid) (found : Bool) :
    Kept postId (s.commitDelete postId i imageId found) := by
  refine ⟨(List.length_filter_le _ _).trans hkept.1, fun url hmem hlocal => ?_⟩
  obtain ⟨hold, hother⟩ := List.mem_filter.mp hmem
  obtain ⟨id, himage, rfl⟩ := hkept.2 url hold hlocal
  refine ⟨id, ?_, rfl⟩
  have hne : id ≠ imageId := fun heq => of_decide_eq_true hother (heq ▸ rfl)
  cases found with
  | false => exact himage
  | true => exact List.mem_filter.mpr ⟨himage, decide_eq_true hne⟩

/-- **An edit keeps the images** exactly when it writes no URL of an image that was deleted since. -/
theorem kept_write_iff (hs : Sound postId s) (hkept : Kept postId s) {i : Fin n}
    {body : UpdatePostInput} {since : List Uuid} (hi : s.tx i = some (.validated body since)) :
    Kept postId { s.set i none with post := s.post.coalesce body } ↔ KeepsImages postId s (.write i) := by
  have hchecked := (hs.tx i _ hi).checked
  have hguard : KeepsImages postId s (.write i)
      ↔ ∀ urls ∈ body.mediaUrls, ∀ imageId ∈ since, imageUrl postId imageId ∉ urls := by
    unfold KeepsImages
    dsimp only
    rw [hi]
    simp
  rw [hguard]
  cases hlist : body.mediaUrls with
  | none =>
    -- the list of the post stays
    have hsame : (s.post.coalesce body).mediaUrls = s.post.mediaUrls := by
      unfold Post.coalesce
      rw [hlist]
      rfl
    refine iff_of_true ⟨?_, fun url hmem => ?_⟩ nofun
    · show (s.post.coalesce body).mediaUrls.length ≤ 6
      rw [hsame]
      exact hkept.1
    · exact hkept.2 url (hsame ▸ hmem)
  | some urls =>
    have hnew : (s.post.coalesce body).mediaUrls = urls := by
      unfold Post.coalesce
      rw [hlist]
      rfl
    obtain ⟨hshort, hlocals⟩ := hchecked.1 urls hlist
    refine ⟨fun hafter urls' hurls imageId hdeleted hmem => ?_, fun hnone => ⟨?_, ?_⟩⟩
    · obtain rfl := Option.some.inj hurls
      obtain ⟨id, himage, hurl⟩ :=
        hafter.2 (imageUrl postId imageId) (hnew ▸ hmem) (local_imageUrl postId imageId)
      obtain rfl := imageUrl_injective postId hurl
      exact hchecked.2 imageId hdeleted himage
    · show (s.post.coalesce body).mediaUrls.length ≤ 6
      rw [hnew]
      exact hshort
    · intro url hmem hlocal
      have hmem : url ∈ urls := hnew ▸ hmem
      obtain ⟨id, hid, rfl⟩ := hlocals url hmem hlocal
      rcases hid with himage | hdeleted
      · exact ⟨id, himage, rfl⟩
      · exact absurd hmem (hnone urls rfl id hdeleted)

/-- **One statement** keeps the images exactly under the condition. -/
theorem step_kept_iff {a : Action n} (hs : Sound postId s) (hkept : Kept postId s)
    (ht : step postId s a = some t) : Kept postId t ↔ KeepsImages postId s a := by
  cases moves_of_step ht with
  | goes a i new hgoes hguard => exact iff_of_true hkept hguard
  | draws i imageId hnew => exact iff_of_true hkept trivial
  | uploads i imageId hi =>
    exact iff_of_true (hkept.commitUpload (hs.tx i _ hi).sees i) trivial
  | deletes i imageId found hi => exact iff_of_true (hkept.commitDelete i imageId found) trivial
  | writes i body since hi hfree => exact kept_write_iff hs hkept hi

end Invariant

/-! ### A post that was just created -/

/-- A new post, which has no images yet. -/
def newPost (n : Nat) (post : Post) : State n := ⟨post, [], [], fun _ => none⟩

/-- The list of a new post has no upload in it. -/
theorem kept_newPost {n : Nat} {body : CreatePostReq} {post : Post} (h : createPost body = .ok post)
    (postId : Uuid) : Kept postId (newPost n post) := by
  unfold createPost at h
  dsimp only at h
  split_ifs at h with hcontent hurls htags
  obtain rfl := Except.ok.inj h
  obtain ⟨hshort, hhttps⟩ := not_or.mp hurls
  refine ⟨not_lt.mp hshort, fun url hmem hlocal => ?_⟩
  have hhttps : url.startsWith "https://" = true := by
    by_contra hother
    exact hhttps (List.any_eq_true.mpr ⟨url, hmem, by simpa using hother⟩)
  -- the two prefixes differ in their first characters
  obtain ⟨rest, hrest⟩ := String.startsWith_string_iff.mp hhttps
  obtain ⟨rest', hrest'⟩ := String.startsWith_string_iff.mp hlocal
  rw [← hrest] at hrest'
  cases hrest'

/-! ### Runs -/

/-- **The images of a post.**  From a state without open requests in which they are kept, the images
    are kept in all states of a run exactly when no edit of the run writes the URL of an image whose
    deletion was committed after the edit had read the post. -/
theorem images_kept_iff {n : Nat} {postId : Uuid} {s t : State n} {as : List (Action n)}
    (hdrawn : ∀ imageId ∈ s.images, imageId ∈ s.drawn) (hclosed : ∀ i, s.tx i = none) (hkept : Kept postId s)
    (hrun : Lib.run (step postId) s as = some t) :
    (∀ before u, before <+: as → Lib.run (step postId) s before = some u → Kept postId u)
      ↔ Lib.Along (step postId) (KeepsImages postId) s as := by
  have hs : Sound postId s := ⟨hdrawn, by simp [hclosed], by simp [hclosed]⟩
  exact Lib.forall_prefix_iff_along (fun _ _ _ hs hkept ht => step_sound hs hkept ht)
    (fun _ _ _ hs hkept ht => step_kept_iff hs hkept ht) hs hkept hrun

attribute [local instance] Lib.neZero_two

/-- An image is uploaded, and an edit reads the list with it. -/
def uploadAndRead (postId imageId : Uuid) : List (Action 2) :=
  [.upload 0 imageId, .selectForUpdate 0, .count 0, .insert 0, .append 0, .commit 0,
    .update 1 ⟨none, some [imageUrl postId imageId], none, none⟩, .read 1]

/-- The image is deleted. -/
def delete (imageId : Uuid) : List (Action 2) :=
  [.deleteImage 0 imageId, .delete 0, .remove 0, .commit 0]

/-- An edit that has seen no deletion. -/
theorem keepsImages_of_since_eq_nil {n : Nat} {postId : Uuid} {s : State n} {i : Fin n}
    (h : (s.tx i).map Tx.since = some []) : KeepsImages postId s (.write i) := by
  intro t ht
  obtain ⟨u, hu, hsince⟩ := Option.map_eq_some_iff.mp h
  obtain rfl := Option.some.inj (hu.symm.trans ht)
  cases u with
  | validated body since =>
    obtain rfl : since = [] := hsince
    exact fun _ _ _ himage => absurd himage List.not_mem_nil
  | _ => trivial

/-- The edit is written before the image is deleted. -/
theorem kept_edit_first :
    (∃ t, Lib.run (step 7) (newPost 2 ⟨"a post", [], [], []⟩)
        (uploadAndRead 7 1 ++ [.write 1] ++ delete 1) = some t)
      ∧ ∀ before u, before <+: uploadAndRead 7 1 ++ [.write 1] ++ delete 1 →
        Lib.run (step 7) (newPost 2 ⟨"a post", [], [], []⟩) before = some u → Kept 7 u := by
  have hpost : (createPost ⟨"a post", [], [], []⟩).toOption = some ⟨"a post", [], [], []⟩ := by
    decide +kernel
  have hcreated : createPost ⟨"a post", [], [], []⟩ = .ok ⟨"a post", [], [], []⟩ := by
    cases h : createPost ⟨"a post", [], [], []⟩ with
    | error e => simp [h, Except.toOption] at hpost
    | ok post => simpa [h, Except.toOption] using hpost
  have hsome : (Lib.run (step 7) (newPost 2 ⟨"a post", [], [], []⟩)
      (uploadAndRead 7 1 ++ [.write 1] ++ delete 1)).isSome := by
    decide +kernel
  obtain ⟨t, hrun⟩ := Option.isSome_iff_exists.mp hsome
  refine ⟨⟨t, hrun⟩, ?_⟩
  have hread : (Lib.run (step 7) (newPost 2 ⟨"a post", [], [], []⟩) (uploadAndRead 7 1)).map
      (fun u => (u.tx 1).map Tx.since) = some (some []) := by
    decide +kernel
  obtain ⟨u, hu, hsince⟩ := Option.map_eq_some_iff.mp hread
  refine (images_kept_iff (fun _ himage => absurd himage List.not_mem_nil) (fun _ => rfl)
    (kept_newPost hcreated 7) hrun).mpr ?_
  -- only the write can break the list
  rw [List.append_assoc, Lib.along_append hu]
  refine ⟨Lib.along_of_forall (by simp [uploadAndRead, KeepsImages]) _,
    keepsImages_of_since_eq_nil hsince, fun _ _ => ?_⟩
  exact Lib.along_of_forall (by simp [delete, KeepsImages]) _

/-- The edit is written after the image was deleted: its URL comes back. -/
theorem dangling_edit_last :
    ∃ t : State 2, Lib.run (step 7) (newPost 2 ⟨"a post", [], [], []⟩)
      (uploadAndRead 7 1 ++ delete 1 ++ [.write 1]) = some t ∧ ¬ Kept 7 t := by
  have hend : (Lib.run (step 7) (newPost 2 ⟨"a post", [], [], []⟩)
      (uploadAndRead 7 1 ++ delete 1 ++ [.write 1])).map (fun t => (t.post.mediaUrls, t.images))
        = some ([imageUrl 7 1], []) := by
    decide +kernel
  obtain ⟨t, hrun, ht⟩ := Option.map_eq_some_iff.mp hend
  obtain ⟨hurls, himages⟩ := Prod.mk.inj ht
  refine ⟨t, hrun, fun hkept => ?_⟩
  obtain ⟨imageId, himage, -⟩ := hkept.2 (imageUrl 7 1) (hurls ▸ List.mem_cons_self)
    (local_imageUrl 7 1)
  rw [himages] at himage
  cases himage

end Oecophylla.Content.Images
