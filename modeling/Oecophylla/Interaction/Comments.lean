import Mathlib.Data.List.Nodup
import Oecophylla.Lib.Run

namespace Oecophylla.Interaction.Comments

/-!
# Comments and their counter — `interaction-service`, `create_comment` and `delete_comment`

The handlers run transactions that are cut into their statements.  A statement reads what is
committed when it starts; `UPDATE` statements take the lock of their row and keep it.

* `Tx` — a request and how far its transaction is;
* `step` — one statement of one connection;
* `CountsLive` — `comment_count` is the number of live top-level comments;
* `DeletesLive` — the condition under which a deletion counts nothing twice;
* `commentCount_correct` — runs that meet the condition;
* `deleted_twice` — a run that does not.
-/

/-- A UUID. -/
abbrev Uuid := Nat

/-- `UserRole`. -/
inductive UserRole where
  | user
  | creator
  | admin
  deriving DecidableEq, Repr

/-- `AuthUser`. -/
structure AuthUser where
  id : Uuid
  role : UserRole
  deriving DecidableEq, Repr

/-- A row of `comments`. -/
structure Comment where
  id : Uuid
  postId : Uuid
  authorId : Uuid
  parentCommentId : Option Uuid
  content : String
  isDeleted : Bool
  deriving DecidableEq, Repr

/-- A request. -/
inductive Request where
  | create (me : AuthUser) (postId : Uuid) (parentCommentId : Option Uuid) (content : String)
  | delete (requester : AuthUser) (id : Uuid)
  deriving DecidableEq, Repr

/-- What a transaction has written to `comments`. -/
inductive Write where
  | nothing
  | insert (c : Comment)
  | softDelete (id : Uuid)
  deriving DecidableEq, Repr

/-- How far a transaction is. -/
inductive Stage where
  | begun
  /-- The parent of a new comment is a top-level comment of the post, or there is none. -/
  | parentChecked
  /-- The comment to delete is not deleted and the requester may delete it. -/
  | allowed (row : Comment)
  /-- `bump_counter` is next. -/
  | bumping (write : Write) (postId : Uuid) (delta : Int)
  /-- `commit` is next; the counter that was bumped. -/
  | finished (write : Write) (bump : Option (Uuid × Int))
  deriving DecidableEq, Repr

/-- A transaction. -/
structure Tx where
  request : Request
  stage : Stage
  deriving DecidableEq, Repr

/-- The committed tables and the open transactions of `n` connections. -/
structure State (n : Nat) where
  posts : List Uuid
  comments : List Comment
  commentCount : Uuid → Int
  tx : Fin n → Option Tx

/-- One statement of a connection; `abort` ends a transaction that fails in any way. -/
inductive Action (n : Nat) where
  | begin (i : Fin n) (request : Request)
  | checkParent (i : Fin n)
  | insert (i : Fin n) (id : Uuid)
  | select (i : Fin n)
  | update (i : Fin n)
  | bump (i : Fin n)
  | commit (i : Fin n)
  | abort (i : Fin n)
  deriving DecidableEq, Repr

/-- The connection of a statement. -/
def Action.connection {n : Nat} : Action n → Fin n
  | .begin i _ | .checkParent i | .insert i _ | .select i | .update i | .bump i | .commit i
  | .abort i => i

/-- The code points of `char::is_whitespace`. -/
def whitespace : List Nat :=
  [0x9, 0xa, 0xb, 0xc, 0xd, 0x20, 0x85, 0xa0, 0x1680, 0x2000, 0x2001, 0x2002, 0x2003, 0x2004, 0x2005,
   0x2006, 0x2007, 0x2008, 0x2009, 0x200a, 0x2028, 0x2029, 0x202f, 0x205f, 0x3000]

/-- `body.content.trim()`. -/
def trim (content : String) : String :=
  let isSpace := fun c : Char => whitespace.contains c.toNat
  String.ofList ((content.toList.dropWhile isSpace).reverse.dropWhile isSpace).reverse

/-- Whether the handler accepts the content of a comment. -/
def contentAccepted (content : String) : Bool :=
  decide (1 ≤ (trim content).length ∧ (trim content).length ≤ 2000)

/-- Whether a requester may delete a comment. -/
def mayDelete (requester : AuthUser) (row : Comment) : Bool :=
  row.authorId = requester.id || requester.role = .admin

/-- `UPDATE comments SET is_deleted = true WHERE id = $1`. -/
def markDeleted (comments : List Comment) (id : Uuid) : List Comment :=
  comments.map fun c => if c.id = id then { c with isDeleted := true } else c

/-- A write is committed. -/
def Write.apply (comments : List Comment) : Write → List Comment
  | .nothing => comments
  | .insert c => comments ++ [c]
  | .softDelete id => markDeleted comments id

/-- A bump is committed. -/
def applyBump (commentCount : Uuid → Int) : Option (Uuid × Int) → Uuid → Int
  | none => commentCount
  | some (postId, delta) => Function.update commentCount postId (commentCount postId + delta)

/-- After the write the counter is bumped when the comment is a top-level one. -/
def afterWrite (write : Write) (row : Comment) (delta : Int) : Stage :=
  if row.parentCommentId.isNone then .bumping write row.postId delta else .finished write none

/-- The comment whose row a transaction has locked. -/
def Stage.lockedComment : Stage → Option Uuid
  | .bumping (.softDelete id) _ _ => some id
  | .finished (.softDelete id) _ => some id
  | _ => none

/-- The post whose row a transaction has locked. -/
def Stage.lockedPost : Stage → Option Uuid
  | .finished _ (some (postId, _)) => some postId
  | _ => none

section Step

variable {n : Nat}

/-- No other transaction has a lock. -/
def LockFree (s : State n) (i : Fin n) (lock : Stage → Option Uuid) (id : Uuid) : Prop :=
  ∀ j, j ≠ i → ∀ t ∈ s.tx j, lock t.stage ≠ some id

instance (s : State n) (i : Fin n) (lock : Stage → Option Uuid) (id : Uuid) :
    Decidable (LockFree s i lock id) :=
  inferInstanceAs (Decidable (∀ j, j ≠ i → ∀ t ∈ s.tx j, _))

/-- The transaction of a connection goes on. -/
def State.set (s : State n) (i : Fin n) (t : Option Tx) : State n :=
  { s with tx := Function.update s.tx i t }

/-- Whether the handler opens a transaction for a request. -/
def opens (s : State n) : Request → Bool
  | .create _ postId _ content => contentAccepted content && decide (postId ∈ s.posts)
  | .delete _ _ => true

/-- One statement; `none` when it is not the next one, has to wait, or makes the request fail. -/
def step (s : State n) : Action n → Option (State n)
  | .begin i request =>
    if (s.tx i).isNone ∧ opens s request then some (s.set i (some ⟨request, .begun⟩)) else none
  | .checkParent i =>
    match s.tx i with
    | some ⟨.create me postId parent content, .begun⟩ =>
      if ∀ p ∈ parent, ∃ c ∈ s.comments, c.id = p ∧ c.postId = postId ∧ c.parentCommentId = none then
        some (s.set i (some ⟨.create me postId parent content, .parentChecked⟩))
      else none
    | _ => none
  | .insert i id =>
    match s.tx i with
    | some ⟨.create me postId parent content, .parentChecked⟩ =>
      let c : Comment := ⟨id, postId, me.id, parent, trim content, false⟩
      if id ∈ s.comments.map Comment.id then none
      else some (s.set i (some ⟨.create me postId parent content, afterWrite (.insert c) c 1⟩))
    | _ => none
  | .select i =>
    match s.tx i with
    | some ⟨.delete requester id, .begun⟩ =>
      match s.comments.find? fun c => c.id = id with
      | none => none
      | some row =>
        if row.isDeleted then
          some (s.set i (some ⟨.delete requester id, afterWrite .nothing row (-1)⟩))
        else if mayDelete requester row then
          some (s.set i (some ⟨.delete requester id, .allowed row⟩))
        else none
    | _ => none
  | .update i =>
    match s.tx i with
    | some ⟨.delete requester id, .allowed row⟩ =>
      if LockFree s i Stage.lockedComment id then
        some (s.set i (some ⟨.delete requester id, afterWrite (.softDelete id) row (-1)⟩))
      else none
    | _ => none
  | .bump i =>
    match s.tx i with
    | some ⟨request, .bumping write postId delta⟩ =>
      if LockFree s i Stage.lockedPost postId then
        some (s.set i (some ⟨request, .finished write (some (postId, delta))⟩))
      else none
    | _ => none
  | .commit i =>
    match s.tx i with
    | some ⟨_, .finished write bump⟩ =>
      -- an id that another transaction has inserted meanwhile violates the primary key
      if ((write.apply s.comments).map Comment.id).Nodup then
        some { (s.set i none) with
          comments := write.apply s.comments
          commentCount := applyBump s.commentCount bump }
      else none
    | _ => none
  | .abort i => if (s.tx i).isSome then some (s.set i none) else none

/-! ### The counter and the live comments -/

/-- The live top-level comments of a post. -/
def liveTopLevel (comments : List Comment) (postId : Uuid) : Nat :=
  comments.countP fun c => c.postId = postId && c.parentCommentId.isNone && !c.isDeleted

/-- **The counters are right.** -/
def CountsLive (s : State n) : Prop :=
  ∀ postId ∈ s.posts, s.commentCount postId = liveTopLevel s.comments postId

/-- A request to delete a comment by somebody who is neither its author nor an admin. -/
def Unauthorized (comments : List Comment) : Request → Prop
  | .create .. => False
  | .delete requester id => ∀ c ∈ comments, c.id = id → mayDelete requester c = false

/-- The comment that a request deletes is not deleted, if it is a top-level one. -/
def Request.DeletesLive (comments : List Comment) : Request → Prop
  | .create .. => True
  | .delete _ id => ∀ c ∈ comments, c.id = id → c.parentCommentId = none → c.isDeleted = false

/-- **A deletion counts nothing twice.**  When the deletion of a top-level comment commits, the
    comment is not deleted yet. -/
def DeletesLive (s : State n) : Action n → Prop
  | .commit i => ∀ t ∈ s.tx i, t.request.DeletesLive s.comments
  | _ => True

instance (comments : List Comment) : (request : Request) → Decidable (request.DeletesLive comments)
  | .create .. => .isTrue trivial
  | .delete _ id => inferInstanceAs (Decidable (∀ c ∈ comments, c.id = id → _ → _))

instance (s : State n) : (a : Action n) → Decidable (DeletesLive s a)
  | .commit i => inferInstanceAs (Decidable (∀ t ∈ s.tx i, t.request.DeletesLive s.comments))
  | .begin .. | .checkParent _ | .insert .. | .select _ | .update _ | .bump _ | .abort _ =>
    .isTrue trivial

/-! ### Counting -/

section Count

variable {comments : List Comment} {id postId : Uuid} {c : Comment}

theorem liveTopLevel_append (c : Comment) :
    liveTopLevel (comments ++ [c]) postId = liveTopLevel comments postId
      + if c.postId = postId ∧ c.parentCommentId = none ∧ c.isDeleted = false then 1 else 0 := by
  unfold liveTopLevel
  rw [List.countP_append, List.countP_singleton]
  simp [and_assoc]

/-- Marking a comment that does not count. -/
theorem liveTopLevel_markDeleted_of_not_counted
    (h : ∀ c ∈ comments, c.id = id →
      ¬ (c.postId = postId ∧ c.parentCommentId = none ∧ c.isDeleted = false)) :
    liveTopLevel (markDeleted comments id) postId = liveTopLevel comments postId := by
  unfold liveTopLevel markDeleted
  rw [List.countP_map]
  apply List.countP_congr
  intro c hc
  rw [Function.comp_apply]
  by_cases hid : c.id = id
  · rw [if_pos hid]
    simpa [and_assoc] using h c hc hid
  · rw [if_neg hid]

/-- Marking a comment that counts. -/
theorem liveTopLevel_markDeleted_of_counted (hnodup : (comments.map Comment.id).Nodup)
    (hc : c ∈ comments) (hid : c.id = id) (hpost : c.postId = postId)
    (htop : c.parentCommentId = none) (hlive : c.isDeleted = false) :
    liveTopLevel (markDeleted comments id) postId + 1 = liveTopLevel comments postId := by
  induction comments with
  | nil => simp at hc
  | cons d comments ih =>
    obtain ⟨hd, hrest⟩ := List.nodup_cons.mp hnodup
    have hcons : ∀ (e : Comment) (l : List Comment), liveTopLevel (e :: l) postId
        = liveTopLevel l postId
          + if e.postId = postId ∧ e.parentCommentId = none ∧ e.isDeleted = false then 1 else 0 := by
      intro e l
      unfold liveTopLevel
      rw [List.countP_cons]
      simp [and_assoc]
    rcases List.mem_cons.mp hc with rfl | hc
    · -- no other row has its id
      have hsame : liveTopLevel (markDeleted comments id) postId = liveTopLevel comments postId := by
        apply liveTopLevel_markDeleted_of_not_counted
        intro e he heq
        exact absurd (List.mem_map.mpr ⟨e, he, heq.trans hid.symm⟩) hd
      rw [markDeleted, List.map_cons, ← markDeleted, if_pos hid, hcons, hcons, hsame]
      simp [hpost, htop, hlive]
    · have hne : ¬ d.id = id := fun heq => hd (List.mem_map.mpr ⟨c, hc, hid.trans heq.symm⟩)
      rw [markDeleted, List.map_cons, ← markDeleted, if_neg hne, hcons, hcons, ← ih hrest hc]
      omega

end Count

/-! ### The invariant -/

/-- Two versions of one row. -/
def SameRow (c row : Comment) : Prop :=
  c.id = row.id ∧ c.postId = row.postId ∧ c.authorId = row.authorId
    ∧ c.parentCommentId = row.parentCommentId

/-- The row is in the table, perhaps deleted meanwhile. -/
def Known (comments : List Comment) (row : Comment) : Prop := ∃ c ∈ comments, SameRow c row

/-- What a transaction has written about `row`, and how it is going to bump the counter. -/
def Write.Sound (comments : List Comment) (request : Request) (row : Comment) (delta : Int) :
    Write → Prop
  | .insert c => c = row ∧ c.isDeleted = false ∧ delta = 1
    ∧ ∃ me postId parent content, request = .create me postId parent content
  | .softDelete id => id = row.id ∧ delta = -1 ∧ Known comments row
    ∧ ∃ requester, request = .delete requester row.id ∧ mayDelete requester row = true
  | .nothing => delta = -1 ∧ (∃ c ∈ comments, SameRow c row ∧ c.isDeleted = true)
    ∧ ∃ requester, request = .delete requester row.id

/-- What a transaction knows. -/
def Stage.Sound (comments : List Comment) (request : Request) : Stage → Prop
  | .begun => True
  | .parentChecked => True
  | .allowed row => Known comments row
    ∧ ∃ requester, request = .delete requester row.id ∧ mayDelete requester row = true
  | .bumping write postId delta => ∃ row, write.Sound comments request row delta
    ∧ row.parentCommentId = none ∧ postId = row.postId
  | .finished write bump => ∃ row delta, write.Sound comments request row delta
    ∧ bump = if row.parentCommentId.isNone then some (row.postId, delta) else none

/-- The invariant. -/
structure Sound (s : State n) : Prop where
  counts : CountsLive s
  nodup : (s.comments.map Comment.id).Nodup
  tx : ∀ i, ∀ t ∈ s.tx i, t.stage.Sound s.comments t.request

/-- Rows stay, and deleted ones stay deleted. -/
def Evolves (comments comments' : List Comment) : Prop :=
  ∀ c ∈ comments, ∃ c' ∈ comments', SameRow c' c ∧ (c.isDeleted = true → c'.isDeleted = true)

theorem evolves_apply (comments : List Comment) (write : Write) :
    Evolves comments (write.apply comments) := by
  intro c hc
  cases write with
  | nothing => exact ⟨c, hc, ⟨rfl, rfl, rfl, rfl⟩, id⟩
  | insert c' => exact ⟨c, List.mem_append_left _ hc, ⟨rfl, rfl, rfl, rfl⟩, id⟩
  | softDelete id =>
    refine ⟨_, List.mem_map_of_mem hc, ?_, ?_⟩
    · split <;> exact ⟨rfl, rfl, rfl, rfl⟩
    · intro hdeleted
      split
      · rfl
      · exact hdeleted

theorem sameRow_trans {c d e : Comment} (h : SameRow c d) (h' : SameRow d e) : SameRow c e :=
  ⟨h.1.trans h'.1, h.2.1.trans h'.2.1, h.2.2.1.trans h'.2.2.1, h.2.2.2.trans h'.2.2.2⟩

section Evolve

variable {comments comments' : List Comment} (hevolves : Evolves comments comments')

include hevolves

theorem known_evolves {row : Comment} (h : Known comments row) : Known comments' row := by
  obtain ⟨c, hc, hsame⟩ := h
  obtain ⟨c', hc', hsame', -⟩ := hevolves c hc
  exact ⟨c', hc', sameRow_trans hsame' hsame⟩

theorem writeSound_evolves {request : Request} {row : Comment} {delta : Int} {write : Write}
    (h : write.Sound comments request row delta) : write.Sound comments' request row delta := by
  cases write with
  | insert c => exact h
  | softDelete id =>
    obtain ⟨hid, hdelta, hknown, hrequest⟩ := h
    exact ⟨hid, hdelta, known_evolves hevolves hknown, hrequest⟩
  | nothing =>
    obtain ⟨hdelta, ⟨c, hc, hsame, hdeleted⟩, hrequest⟩ := h
    obtain ⟨c', hc', hsame', hstays⟩ := hevolves c hc
    exact ⟨hdelta, ⟨c', hc', sameRow_trans hsame' hsame, hstays hdeleted⟩, hrequest⟩

theorem stageSound_evolves {request : Request} {stage : Stage} (h : stage.Sound comments request) :
    stage.Sound comments' request := by
  cases stage with
  | begun => trivial
  | parentChecked => trivial
  | allowed row => exact ⟨known_evolves hevolves h.1, h.2⟩
  | bumping write postId delta =>
    obtain ⟨row, hwrite, hrow⟩ := h
    exact ⟨row, writeSound_evolves hevolves hwrite, hrow⟩
  | finished write bump =>
    obtain ⟨row, delta, hwrite, hbump⟩ := h
    exact ⟨row, delta, writeSound_evolves hevolves hwrite, hbump⟩

end Evolve

theorem stageSound_afterWrite {comments : List Comment} {request : Request} {write : Write}
    {row : Comment} {delta : Int} (h : write.Sound comments request row delta) :
    (afterWrite write row delta).Sound comments request := by
  unfold afterWrite
  split
  · next htop => exact ⟨row, h, Option.isNone_iff_eq_none.mp htop, rfl⟩
  · next htop => exact ⟨row, delta, h, by rw [if_neg htop]⟩

variable {s t : State n}

/-- A transaction goes on without committing. -/
theorem sound_set {i : Fin n} {new : Option Tx} (hs : Sound s)
    (hnew : ∀ t ∈ new, t.stage.Sound s.comments t.request) : Sound (s.set i new) := by
  refine ⟨hs.counts, hs.nodup, fun j t ht => ?_⟩
  by_cases hj : j = i
  · subst hj
    rw [State.set] at ht
    dsimp only at ht
    rw [Function.update_self] at ht
    exact hnew t ht
  · rw [State.set] at ht
    dsimp only at ht
    rw [Function.update_of_ne hj] at ht
    exact hs.tx j t ht

theorem sound_set_some {i : Fin n} {request : Request} {stage : Stage} (hs : Sound s)
    (hnew : stage.Sound s.comments request) : Sound (s.set i (some ⟨request, stage⟩)) :=
  sound_set hs fun _ ht => Option.some.inj ht ▸ hnew

theorem applyBump_apply (commentCount : Uuid → Int) (row : Comment) (delta : Int) (p : Uuid) :
    applyBump commentCount (if row.parentCommentId.isNone then some (row.postId, delta) else none) p
      = commentCount p + if row.postId = p ∧ row.parentCommentId = none then delta else 0 := by
  by_cases htop : row.parentCommentId = none
  · simp only [htop, Option.isNone_none, if_true, applyBump, and_true]
    by_cases hp : row.postId = p
    · subst hp
      rw [Function.update_self, if_pos rfl]
    · rw [Function.update_of_ne (Ne.symm hp), if_neg hp, Int.add_zero]
  · have hsome : row.parentCommentId.isNone = false := by
      simpa [Option.isNone_eq_false_iff, Option.isSome_iff_ne_none] using htop
    simp [hsome, htop, applyBump]

/-- A commit changes the number of live top-level comments by what it adds to the counter. -/
theorem liveTopLevel_apply {comments : List Comment} {request : Request} {write : Write}
    {row : Comment} {delta : Int} (hnodup : (comments.map Comment.id).Nodup)
    (hwrite : write.Sound comments request row delta)
    (hlive : request.DeletesLive comments) (p : Uuid) :
    (liveTopLevel (write.apply comments) p : Int) = liveTopLevel comments p
      + if row.postId = p ∧ row.parentCommentId = none then delta else 0 := by
  cases write with
  | insert c =>
    obtain ⟨rfl, hc, rfl, -⟩ := hwrite
    show (liveTopLevel (comments ++ [c]) p : Int) = _
    rw [liveTopLevel_append]
    by_cases hcount : c.postId = p ∧ c.parentCommentId = none <;> simp [hcount, hc]
  | softDelete id =>
    obtain ⟨rfl, rfl, ⟨c, hc, hid, hpost, -, hparent⟩, requester, rfl, -⟩ := hwrite
    show (liveTopLevel (markDeleted comments row.id) p : Int) = _
    by_cases hcount : row.postId = p ∧ row.parentCommentId = none
    · have htop : c.parentCommentId = none := hparent.trans hcount.2
      have hmark := liveTopLevel_markDeleted_of_counted hnodup hc hid (hpost.trans hcount.1) htop
        (hlive c hc hid htop)
      rw [if_pos hcount]
      omega
    · have hmark : liveTopLevel (markDeleted comments row.id) p = liveTopLevel comments p := by
        apply liveTopLevel_markDeleted_of_not_counted
        rintro d hd hdid ⟨hdpost, hdtop, -⟩
        have hdc : d = c := List.inj_on_of_nodup_map hnodup hd hc (hdid.trans hid.symm)
        subst hdc
        exact hcount ⟨hpost ▸ hdpost, hparent ▸ hdtop⟩
      rw [hmark, if_neg hcount, Int.add_zero]
  | nothing =>
    obtain ⟨rfl, ⟨c, hc, ⟨hid, hpost, -, hparent⟩, hdeleted⟩, requester, rfl⟩ := hwrite
    have hnone : ¬ (row.postId = p ∧ row.parentCommentId = none) := by
      rintro ⟨-, htop⟩
      have hnot := hlive c hc hid (hparent.trans htop)
      rw [hdeleted] at hnot
      contradiction
    rw [if_neg hnone, Int.add_zero]
    rfl

/-- **One statement.** -/
theorem sound_step (s : State n) (a : Action n) (t : State n) (hs : Sound s)
    (hguard : DeletesLive s a) (h : step s a = some t) : Sound t := by
  cases a with
  | begin i request =>
    simp only [step] at h
    split_ifs at h
    obtain rfl := Option.some.inj h
    exact sound_set_some hs trivial
  | checkParent i =>
    simp only [step] at h
    split at h
    · split_ifs at h
      obtain rfl := Option.some.inj h
      exact sound_set_some hs trivial
    · contradiction
  | insert i id =>
    simp only [step] at h
    split at h
    · next me postId parent content htx =>
      split_ifs at h
      obtain rfl := Option.some.inj h
      exact sound_set_some hs (stageSound_afterWrite ⟨rfl, rfl, rfl, me, postId, parent, content, rfl⟩)
    · contradiction
  | select i =>
    simp only [step] at h
    split at h
    · next requester id htx =>
      split at h
      · contradiction
      · next row hrow =>
        have hmem := List.mem_of_find?_eq_some hrow
        obtain rfl : row.id = id := by simpa using List.find?_some hrow
        split_ifs at h with hdeleted hallowed
        · obtain rfl := Option.some.inj h
          exact sound_set_some hs (stageSound_afterWrite
            ⟨rfl, ⟨row, hmem, ⟨rfl, rfl, rfl, rfl⟩, hdeleted⟩, requester, rfl⟩)
        · obtain rfl := Option.some.inj h
          exact sound_set_some hs ⟨⟨row, hmem, rfl, rfl, rfl, rfl⟩, requester, rfl, hallowed⟩
    · contradiction
  | update i =>
    simp only [step] at h
    split at h
    · next requester id row htx =>
      split_ifs at h
      obtain rfl := Option.some.inj h
      obtain ⟨hknown, requester', hrequest, hallowed⟩ := hs.tx i _ htx
      obtain ⟨rfl, rfl⟩ := Request.delete.inj hrequest
      exact sound_set_some hs (stageSound_afterWrite
        ⟨rfl, rfl, hknown, requester, rfl, hallowed⟩)
    · contradiction
  | bump i =>
    simp only [step] at h
    split at h
    · next request write postId delta htx =>
      split_ifs at h
      obtain rfl := Option.some.inj h
      obtain ⟨row, hwrite, htop, rfl⟩ := hs.tx i _ htx
      exact sound_set_some hs ⟨row, delta, hwrite, by simp [htop]⟩
    · contradiction
  | commit i =>
    simp only [step] at h
    split at h
    · next request write bump htx =>
      split_ifs at h with hnodup
      obtain rfl := Option.some.inj h
      obtain ⟨row, delta, hwrite, rfl⟩ := hs.tx i _ htx
      refine ⟨fun p hp => ?_, hnodup, fun j t ht => ?_⟩
      · show applyBump s.commentCount _ p = _
        rw [applyBump_apply, hs.counts p hp]
        exact (liveTopLevel_apply hs.nodup hwrite (hguard _ htx) p).symm
      · have hother : t ∈ s.tx j := by
          by_cases hj : j = i
          · subst hj
            simp [State.set] at ht
          · simpa [State.set, Function.update_of_ne hj] using ht
        exact stageSound_evolves (evolves_apply s.comments write) (hs.tx j t hother)
    · contradiction
  | abort i =>
    simp only [step] at h
    split_ifs at h
    obtain rfl := Option.some.inj h
    exact sound_set hs (by simp)

/-- Only a commit changes comments and counters. -/
theorem eq_of_not_commit {a : Action n} (h : step s a = some t) (ha : ∀ i, a ≠ .commit i) :
    t.comments = s.comments ∧ t.commentCount = s.commentCount := by
  cases a with
  | commit i => exact absurd rfl (ha i)
  | begin | abort =>
    simp only [step] at h
    split_ifs at h
    obtain rfl := Option.some.inj h
    exact ⟨rfl, rfl⟩
  | checkParent | insert | update | bump =>
    simp only [step] at h
    split at h
    · split_ifs at h
      obtain rfl := Option.some.inj h
      exact ⟨rfl, rfl⟩
    · contradiction
  | select i =>
    simp only [step] at h
    split at h
    · split at h
      · contradiction
      · split_ifs at h <;>
          (obtain rfl := Option.some.inj h; exact ⟨rfl, rfl⟩)
    · contradiction

/-- **An unauthorized request changes nothing.** -/
theorem eq_of_unauthorized {a : Action n} {tx : Tx} (hs : Sound s) (hguard : DeletesLive s a)
    (h : step s a = some t) (htx : s.tx a.connection = some tx)
    (hunauthorized : Unauthorized s.comments tx.request) :
    t.comments = s.comments ∧ t.commentCount = s.commentCount := by
  by_cases ha : ∀ i, a ≠ .commit i
  · exact eq_of_not_commit h ha
  · rw [not_forall] at ha
    obtain ⟨i, hi⟩ := ha
    obtain rfl := not_not.mp hi
    simp only [step] at h
    split at h
    · next request write bump hfinished =>
      split_ifs at h
      obtain rfl := Option.some.inj h
      obtain rfl : ⟨request, .finished write bump⟩ = tx := Option.some.inj (hfinished.symm.trans htx)
      obtain ⟨row, delta, hwrite, rfl⟩ := hs.tx i _ hfinished
      cases write with
      | insert c =>
        obtain ⟨-, -, -, me, postId, parent, content, rfl⟩ := hwrite
        exact absurd hunauthorized id
      | softDelete id =>
        -- the row that was read has the author of the comment
        obtain ⟨-, -, ⟨c, hc, hid, -, hauthor, -⟩, requester, rfl, hallowed⟩ := hwrite
        have hnot := hunauthorized c hc hid
        unfold mayDelete at hnot hallowed
        rw [hauthor, hallowed] at hnot
        contradiction
      | nothing =>
        obtain ⟨-, ⟨c, hc, ⟨hid, -, -, hparent⟩, hdeleted⟩, requester, rfl⟩ := hwrite
        have hreply : row.parentCommentId ≠ none := by
          intro htop
          have hnot := hguard _ hfinished c hc hid (hparent.trans htop)
          rw [hdeleted] at hnot
          contradiction
        refine ⟨rfl, ?_⟩
        show applyBump s.commentCount (if row.parentCommentId.isNone = true then _ else none) = _
        rw [if_neg (by simpa [Option.isNone_iff_eq_none] using hreply)]
        rfl
    · contradiction

/-- The start: no transaction is open and the counters are right. -/
structure Initial (s : State n) : Prop where
  tx_eq : ∀ i, s.tx i = none
  counts : CountsLive s
  nodup : (s.comments.map Comment.id).Nodup

/-- **The counters stay right.**  In a run in which every deletion of a top-level comment commits
    while the comment is not deleted, the counters are right at the end, and a further statement
    of an unauthorized request changes neither comments nor counters. -/
theorem commentCount_correct (s t : State n) (as : List (Action n)) (hinit : Initial s)
    (hrun : Lib.run step s as = some t) (hlive : Lib.Along step DeletesLive s as) :
    CountsLive t ∧ ∀ a u tx, DeletesLive t a → step t a = some u → t.tx a.connection = some tx →
      Unauthorized t.comments tx.request →
      u.comments = t.comments ∧ u.commentCount = t.commentCount := by
  have hsound : Sound t := Lib.run_invariant_along (P := Sound) sound_step
    ⟨hinit.counts, hinit.nodup, by simp [hinit.tx_eq]⟩ hrun hlive
  exact ⟨hsound.counts, fun a u tx hguard hstep htx hunauthorized =>
    eq_of_unauthorized hsound hguard hstep htx hunauthorized⟩

end Step

/-! ### One connection -/

/-- The post 1, without comments. -/
private def onePost : State 1 where
  posts := [1]
  comments := []
  commentCount _ := 0
  tx _ := none

/-- The user 2 comments. -/
private def create : List (Action 1) :=
  [.begin 0 (.create ⟨2, .user⟩ 1 none "hello"), .checkParent 0, .insert 0 10, .bump 0, .commit 0]

/-- The user 2 deletes the comment. -/
private def delete : List (Action 1) :=
  [.begin 0 (.delete ⟨2, .user⟩ 10), .select 0, .update 0, .bump 0, .commit 0]

/-- The user 3, who is not the author, deletes it again. -/
private def deleteAgain : List (Action 1) :=
  [.begin 0 (.delete ⟨3, .user⟩ 10), .select 0, .bump 0, .commit 0]

private theorem isSome_run :
    (Lib.run step onePost (create ++ delete)).isSome
      ∧ (Lib.run step onePost (create ++ delete ++ deleteAgain)).isSome := by
  decide +kernel

private def afterDelete : State 1 := (Lib.run step onePost (create ++ delete)).get isSome_run.1

private def afterDeleteAgain : State 1 :=
  (Lib.run step onePost (create ++ delete ++ deleteAgain)).get isSome_run.2

/-- A comment that is deleted once. -/
theorem commentCount_correct_once :
    Lib.run step onePost (create ++ delete) = some afterDelete ∧ CountsLive afterDelete := by
  have hrun : Lib.run step onePost (create ++ delete) = some afterDelete := (Option.some_get _).symm
  exact ⟨hrun, (commentCount_correct onePost afterDelete (create ++ delete)
    ⟨fun _ => rfl, by intro p _; rfl, List.nodup_nil⟩ hrun (by decide +kernel)).1⟩

/-- **Counterexample.**  A deleted top-level comment is deleted once more, by somebody who may not:
    `soft_delete_comment` returns before the check, and the counter goes down again. -/
theorem deleted_twice :
    Initial onePost
      ∧ Lib.run step onePost (create ++ delete ++ deleteAgain) = some afterDeleteAgain
      ∧ afterDeleteAgain.commentCount 1 = -1 ∧ liveTopLevel afterDeleteAgain.comments 1 = 0
      ∧ ¬ CountsLive afterDeleteAgain := by
  have hcount : afterDeleteAgain.commentCount 1 = -1 := by decide +kernel
  have hlive : liveTopLevel afterDeleteAgain.comments 1 = 0 := by decide +kernel
  have hposts : 1 ∈ afterDeleteAgain.posts := by decide +kernel
  refine ⟨⟨fun _ => rfl, by intro p _; rfl, List.nodup_nil⟩, (Option.some_get _).symm, hcount, hlive,
    fun h => ?_⟩
  have heq := h 1 hposts
  rw [hcount, hlive] at heq
  contradiction

end Oecophylla.Interaction.Comments
