import AnotherDimension.Relay.Blob

-- A POST appends its chunk in place and writes the metadata after that. When one of the two writes
-- fails, what was written by then stays.

namespace Relay

def Reply.isAccepted (reply : Reply) : Bool :=
  reply.status = 201 || reply.status = 202

def Upload.isAccepted : Upload → Bool
  | .replied reply => reply.isAccepted
  | _              => false

theorem Reply.isAccepted_error {status value} (h : status ≠ 201 ∧ status ≠ 202) :
    (Reply.error status value).isAccepted = false := by
  simp [isAccepted, error, Reply.status, h]

def UploadFates.allDone : UploadFates :=
  ⟨.done, .done, .done, .done, .done⟩

theorem overwrite_end (content body : Bytes) :
    overwrite content content.length body = content ++ body := by
  simp [overwrite]

namespace Chunk

variable {chunk : Chunk} {blob : Blob} {fates : UploadFates} {existing : Bytes}

-- The bytes of the chunk are in the file at their place.
def IsThere (chunk : Chunk) (content : Bytes) : Prop :=
  chunk.offset < content.length ∧ chunk.finish ≤ content.length ∧
    (content.drop chunk.offset).take chunk.body.length = chunk.body

-- The chunk starts where the file ends. A file that is not there ends at the start.
def IsNext (chunk : Chunk) (blob : Blob) : Prop :=
  (blob.content.getD []).length = chunk.offset

theorem isAccepted_accepted (complete duplicate received) :
    (chunk.accepted complete duplicate received).isAccepted := by
  cases complete <;> simp [accepted, Reply.isAccepted, Reply.status]

theorem isAccepted_written : chunk.written.isAccepted :=
  isAccepted_accepted ..

theorem isAccepted_duplicate : (chunk.duplicate existing).isAccepted :=
  isAccepted_accepted ..

theorem content_write (next : chunk.IsNext blob) (body : Bytes) :
    (blob.write chunk.offset body).content = some (blob.content.getD [] ++ body) := by
  rw [Blob.write, ← next, overwrite_end]

end Chunk

namespace Blob

variable {blob : Blob} {request : ChunkRequest} {chunk : Chunk} {fates : UploadFates}

theorem post_of_error {reply} (h : Chunk.ofRequest request = .error reply) :
    blob.post request = (reply, blob) := by
  simp only [post, h]

theorem post_of_isThere {existing} (h : Chunk.ofRequest request = .ok chunk)
    (hc : blob.content = some existing) (there : chunk.IsThere existing) :
    blob.post request = (chunk.duplicate existing, blob) := by
  simp only [post, h, hc, if_pos there.left, if_pos there.right]

theorem post_of_isNext (h : Chunk.ofRequest request = .ok chunk) (next : chunk.IsNext blob) :
    blob.post request = (chunk.written,
      { blob.write chunk.offset chunk.body with metadata := some chunk.metadata }) := by
  unfold Chunk.IsNext at next
  cases hc : blob.content <;> simp only [hc, Option.getD_none, Option.getD_some] at next <;>
    simp [post, h, hc, next]

-- A chunk that goes elsewhere is refused.
theorem isAccepted_post_iff (h : Chunk.ofRequest request = .ok chunk) :
    (blob.post request).fst.isAccepted ↔
      chunk.IsNext blob ∨ ∃ existing, blob.content = some existing ∧ chunk.IsThere existing := by
  by_cases next : chunk.IsNext blob
  · simp [post_of_isNext h next, Chunk.isAccepted_written, next]
  rw [or_iff_right next]
  cases hc : blob.content with
  | none =>
    have : ¬ 0 = chunk.offset := fun h => next <| by simpa [Chunk.IsNext, hc] using h
    simp [post, h, hc, this, Reply.isAccepted_error]
  | some existing =>
    have distinct : ¬ existing.length = chunk.offset :=
      fun h => next <| by simpa [Chunk.IsNext, hc] using h
    by_cases there : chunk.IsThere existing
    · simp [post_of_isThere h hc there, Chunk.isAccepted_duplicate, there]
    simp only [Option.some.injEq, exists_eq_left', there, iff_false]
    unfold Chunk.IsThere at there
    by_cases inside : chunk.offset < existing.length
    · rw [and_iff_right inside] at there
      simp [post, h, hc, if_pos inside, if_neg there, Reply.isAccepted_error]
    · have : chunk.offset ≠ existing.length := Ne.symm distinct
      simp [post, h, hc, if_neg inside, if_pos this, Reply.isAccepted_error]

-- A GET without headers shows the whole content.
theorem get_congr_iff {other : Blob} :
    (∀ offset length, other.get offset length = blob.get offset length) ↔
      other.content = blob.content := by
  constructor
  · intro h
    have whole := h none none
    cases ho : other.content <;> cases hb : blob.content <;>
      simp_all [get, headerUsize, Reply.error]
  · intro h offset length
    simp only [get, h]

end Blob

namespace Chunk

variable {chunk : Chunk} {blob : Blob} {fates : UploadFates} {existing : Bytes}

theorem ofRequest_now {request} (h : ofRequest request = .ok chunk) (now : UInt64) :
    ofRequest { request with now := now } = .ok { chunk with now := now } := by
  unfold ofRequest at h ⊢
  cases ho : headerUsize request.offsetHeader 0 <;> simp only [ho] at h ⊢
  · cases h
  cases ht : headerUsize request.totalHeader 0 <;> simp only [ht] at h ⊢
  · cases h
  split_ifs at h ⊢
  cases h
  rfl

theorem IsNext.not_isThere (next : chunk.IsNext blob) (hc : blob.content = some existing) :
    ¬ chunk.IsThere existing := by
  rintro ⟨inside, _⟩
  simp only [IsNext, hc, Option.getD_some] at next
  omega

section Steps

theorem iterate_replied (n : Nat) (reply : Reply) :
    (chunk.advance fates)^[n] (.replied reply, blob) = (.replied reply, blob) :=
  Function.iterate_fixed rfl n

-- A chunk that is next gets past the first look at the file.
theorem advance_reading (next : chunk.IsNext blob) :
    chunk.advance fates (.reading, blob) = (.opening, blob) := by
  unfold IsNext at next
  cases hf : fates.read <;> cases hc : blob.content <;>
    simp only [hc, Option.getD_none, Option.getD_some] at next <;>
    simp [advance, UploadFates.of, step, hf, hc, next]

theorem advance_reading_of_isThere (hc : blob.content = some existing)
    (there : chunk.IsThere existing) :
    chunk.advance fates (.reading, blob) =
      (if fates.read = .done then .replied (chunk.duplicate existing) else .opening, blob) := by
  cases hf : fates.read <;>
    simp [advance, UploadFates.of, step, hf, hc, if_pos there.left, if_pos there.right]

theorem advance_opening (h : fates.create = .done) :
    chunk.advance fates (.opening, blob) =
      (.measuring, { blob with content := some (blob.content.getD []) }) := by
  simp only [advance, UploadFates.of, step, h]

theorem advance_opening_failed (h : fates.create ≠ .done) :
    ∃ reply, chunk.advance fates (.opening, blob) = (.replied reply, blob) := by
  cases hf : fates.create with
  | done               => contradiction
  | failed _ | refused =>
    by_cases start : chunk.offset ≠ 0 <;> simp [advance, UploadFates.of, step, hf, start]

theorem advance_measuring (h : fates.measure = .done) (next : chunk.IsNext blob) :
    chunk.advance fates (.measuring, blob) = (.writing, blob) := by
  simp only [advance, UploadFates.of, step, h]
  exact if_neg (not_not.mpr next)

theorem advance_measuring_failed (h : fates.measure = .done → ¬ chunk.IsNext blob) :
    chunk.advance fates (.measuring, blob) =
      (.replied <| .error 400 "blob_offset_mismatch", blob) := by
  cases hf : fates.measure with
  | done               =>
    simp only [advance, UploadFates.of, step, hf]
    exact if_pos (h hf)
  | failed _ | refused => simp only [advance, UploadFates.of, step, hf]

theorem advance_writing (h : fates.write = .done) :
    chunk.advance fates (.writing, blob) =
      (.recording, blob.write chunk.offset chunk.body) := by
  simp only [advance, UploadFates.of, step, h]

-- The metadata is the last step, and leaves the content alone.
theorem advance_recording :
    (chunk.advance fates (.recording, blob)).snd.content = blob.content := by
  cases hf : fates.record <;> simp only [advance, UploadFates.of, step, hf]

end Steps

-- What is in the file when the upload of a chunk that is next ends.
def leftBehind (chunk : Chunk) (blob : Blob) (fates : UploadFates) : Option Bytes :=
  let before := blob.content.getD []
  match fates.create, fates.measure, fates.write with
  | .done, .done, .done           => some (before ++ chunk.body)
  | .done, .done, .failed written => some (before ++ chunk.body.take written)
  | .done, _, _                   => some before
  | _, _, _                       => blob.content

theorem content_run (next : chunk.IsNext blob) :
    (chunk.run fates (.reading, blob)).snd.content = chunk.leftBehind blob fates := by
  have start : chunk.IsNext { blob with content := some (blob.content.getD []) } := next
  rw [run, Function.iterate_succ_apply, advance_reading next, Function.iterate_succ_apply]
  by_cases hcreate : fates.create = .done
  case neg =>
    obtain ⟨reply, h⟩ := advance_opening_failed hcreate
    rw [h, iterate_replied]
    cases hf : fates.create <;> simp_all [leftBehind]
  rw [advance_opening hcreate, Function.iterate_succ_apply]
  by_cases hmeasure : fates.measure = .done
  case neg =>
    rw [advance_measuring_failed (absurd · hmeasure), iterate_replied]
    cases hf : fates.measure <;> simp_all [leftBehind]
  rw [advance_measuring hmeasure start, Function.iterate_succ_apply]
  unfold leftBehind
  cases hwrite : fates.write <;> simp only [hcreate, hmeasure]
  case done =>
    rw [advance_writing hwrite, Function.iterate_one, advance_recording]
    exact content_write start _
  case failed written =>
    simp only [advance, UploadFates.of, step, hwrite, Function.iterate_one]
    exact content_write start _
  case refused =>
    simp only [advance, UploadFates.of, step, hwrite, Function.iterate_one]

-- The file is there or was not made, and no byte was written to it.
def LeavesContent (chunk : Chunk) (blob : Blob) (fates : UploadFates) : Prop :=
  fates.create ≠ .done ∨ blob.content.isSome ∧ (chunk.body = [] ∨
    fates.measure ≠ .done ∨ fates.write = .refused ∨ fates.write = .failed 0)

theorem leftBehind_eq_iff :
    chunk.leftBehind blob fates = blob.content ↔ chunk.LeavesContent blob fates := by
  obtain ⟨read, create, measure, write, record⟩ := fates
  unfold leftBehind LeavesContent
  cases blob.content <;> cases create <;> cases measure <;> cases write <;> simp [or_comm]

-- A chunk that is in the file is not written again, whatever happens.
theorem content_run_of_isThere (hc : blob.content = some existing)
    (there : chunk.IsThere existing) :
    (chunk.run fates (.reading, blob)).snd.content = blob.content := by
  have elsewhere : ¬ chunk.IsNext { blob with content := some (blob.content.getD []) } :=
    fun next => IsNext.not_isThere next (by rw [hc]; rfl) there
  rw [run, Function.iterate_succ_apply, advance_reading_of_isThere hc there]
  split_ifs
  · rw [iterate_replied]
  rw [Function.iterate_succ_apply]
  by_cases hcreate : fates.create = .done
  case neg =>
    obtain ⟨reply, h⟩ := advance_opening_failed hcreate
    rw [h, iterate_replied]
  rw [advance_opening hcreate, Function.iterate_succ_apply,
    advance_measuring_failed fun _ => elsewhere, iterate_replied, hc]
  rfl

end Chunk

namespace Blob

variable {blob failed : Blob} {request : ChunkRequest} {chunk : Chunk} {fates : UploadFates}

-- Without a failure the steps are the handler.
theorem tryPost_allDone :
    blob.tryPost request .allDone = (.replied (blob.post request).fst, (blob.post request).snd) := by
  unfold tryPost
  cases h : Chunk.ofRequest request with
  | error reply => simp only [post_of_error h]
  | ok chunk    =>
    simp only [Chunk.run, Function.iterate_succ_apply]
    by_cases next : chunk.IsNext blob
    · have start : chunk.IsNext { blob with content := some (blob.content.getD []) } := next
      rw [post_of_isNext h next, Chunk.advance_reading next, Chunk.advance_opening rfl,
        Chunk.advance_measuring rfl start, Chunk.advance_writing rfl]
      rfl
    cases hc : blob.content with
    | none          =>
      have elsewhere : ¬ 0 = chunk.offset := fun h => next <| by simpa [Chunk.IsNext, hc] using h
      have opening : chunk.advance .allDone (.reading, blob) = (.opening, blob) := by
        simp only [Chunk.advance, UploadFates.of, UploadFates.allDone, Chunk.step, hc]
      have missed : ¬ chunk.IsNext { blob with content := some (blob.content.getD []) } := next
      rw [opening, Chunk.advance_opening rfl, Chunk.advance_measuring_failed fun _ => missed]
      simp only [post, h, hc, Option.getD_none, List.length_nil, if_pos elsewhere]
      rfl
    | some existing =>
      -- The reply comes with the first step.
      have replied : chunk.advance .allDone (.reading, blob) =
          (.replied (blob.post request).fst, (blob.post request).snd) := by
        have distinct : chunk.offset ≠ existing.length :=
          fun h => next <| by simp [Chunk.IsNext, hc, h]
        simp only [Chunk.advance, UploadFates.of, UploadFates.allDone, Chunk.step, post, h, hc,
          if_pos distinct]
        split_ifs <;> rfl
      rw [replied]
      rfl

-- The request is one to be accepted, but a file step failed.
def Fails (blob : Blob) (request : ChunkRequest) (fates : UploadFates) : Prop :=
  (blob.post request).fst.isAccepted ∧ ¬ (blob.tryPost request fates).fst.isAccepted

-- The content so far and the chunk are parts of what is uploaded.
structure Uploads (data : Bytes) (blob : Blob) (chunk : Chunk) : Prop where
  total   : chunk.total = data.length
  content : blob.content.getD [] <+: data
  body    : chunk.body <+: data.drop chunk.offset

-- Every GET shows what it did before the POST failed, and the same POST goes on with the upload.
structure Recovers (blob failed : Blob) (request : ChunkRequest) : Prop where
  visible  : ∀ offset length, failed.get offset length = blob.get offset length
  accepted : ∀ now, (failed.post { request with now := now }).fst.isAccepted
  uploaded : ∀ now data chunk, Chunk.ofRequest request = .ok chunk → Uploads data blob chunk →
    ∃ content, (failed.post { request with now := now }).snd.content = some content ∧
      content <+: data ∧ (chunk.finish = chunk.total → content = data)

-- Nothing is left, and an upload can start again.
structure Clears (deleted : Blob) : Prop where
  content  : deleted.content = none
  metadata : deleted.metadata = none
  reusable : ∀ request chunk, Chunk.ofRequest request = .ok chunk → chunk.offset = 0 →
    (deleted.post request).fst.isAccepted ∧
    (deleted.post request).snd.content = some chunk.body

theorem Uploads.isNext {data} (h : Uploads data blob chunk) (next : chunk.IsNext blob) :
    blob.content.getD [] ++ chunk.body <+: data := by
  obtain ⟨rest, rfl⟩ := h.content
  have := h.body
  rw [← next, List.drop_left] at this
  exact (List.prefix_append_right_inj _).mpr this

theorem Uploads.complete {data content} (h : Uploads data blob chunk) (part : content <+: data)
    (hl : chunk.finish ≤ content.length) (complete : chunk.finish = chunk.total) :
    content = data := by
  apply part.eq_of_length_le
  rw [← h.total, ← complete]
  exact hl

theorem Fails.place (fails : blob.Fails request fates) :
    ∃ chunk, Chunk.ofRequest request = .ok chunk ∧
      (chunk.IsNext blob ∨ ∃ existing, blob.content = some existing ∧ chunk.IsThere existing) := by
  cases h : Chunk.ofRequest request with
  | error reply =>
    obtain ⟨accepted, failed⟩ := fails
    simp only [post_of_error h] at accepted
    simp only [tryPost, h, Upload.isAccepted] at failed
    contradiction
  | ok chunk => exact ⟨chunk, rfl, (isAccepted_post_iff h).mp fails.left⟩

-- The repeated chunk has another time only.
theorem recovers_of_content (fails : blob.Fails request fates)
    (hc : failed.content = blob.content) : Recovers blob failed request where
  visible  := get_congr_iff.mpr hc
  accepted := by
    intro now
    obtain ⟨chunk, h, place⟩ := fails.place
    rw [isAccepted_post_iff <| Chunk.ofRequest_now h now]
    simp only [Chunk.IsNext, hc]
    exact place
  uploaded := by
    intro now data chunk h uploads
    obtain ⟨chunk', h', place⟩ := fails.place
    obtain rfl : chunk' = chunk := by simpa [h] using h'.symm
    have again := Chunk.ofRequest_now h now
    rcases place with next | ⟨existing, hb, there⟩
    · have next' : Chunk.IsNext { chunk' with now := now } failed := by
        simpa only [Chunk.IsNext, hc] using next
      refine ⟨_, ?_, uploads.isNext next, ?_⟩
      · rw [post_of_isNext again next', ← hc]
        exact Chunk.content_write next' _
      · apply uploads.complete (uploads.isNext next)
        rw [List.length_append, next, Chunk.finish]
    · have part : existing <+: data := by simpa [hb] using uploads.content
      refine ⟨existing, ?_, part, uploads.complete part there.right.left⟩
      rw [post_of_isThere again (hc.trans hb) there, hc, hb]

-- A chunk that is next to be written leaves the content as it is.
def Spares (blob : Blob) (request : ChunkRequest) (fates : UploadFates) : Prop :=
  ∀ chunk, Chunk.ofRequest request = .ok chunk → chunk.IsNext blob → chunk.LeavesContent blob fates

theorem content_tryPost_iff (fails : blob.Fails request fates) :
    (blob.tryPost request fates).snd.content = blob.content ↔ blob.Spares request fates := by
  obtain ⟨chunk, h, place⟩ := fails.place
  simp only [tryPost, Spares, h, Except.ok.injEq, forall_eq']
  rcases place with next | ⟨existing, hc, there⟩
  · rw [Chunk.content_run next, Chunk.leftBehind_eq_iff, imp_iff_right next]
  · have elsewhere : ¬ chunk.IsNext blob := fun next => next.not_isThere hc there
    simp only [Chunk.content_run_of_isThere hc there, elsewhere, false_imp_iff]

theorem recovers_iff' (fails : blob.Fails request fates) :
    Recovers blob (blob.tryPost request fates).snd request ↔ blob.Spares request fates := by
  rw [← content_tryPost_iff fails]
  constructor
  · intro h
    exact get_congr_iff.mp h.visible
  · exact recovers_of_content fails

theorem clears_of_none {deleted : Blob} (hc : deleted.content = none)
    (hm : deleted.metadata = none) : Clears deleted where
  content  := hc
  metadata := hm
  reusable := by
    intro request chunk h start
    have next : chunk.IsNext deleted := by simp [Chunk.IsNext, hc, start]
    rw [post_of_isNext h next]
    refine ⟨Chunk.isAccepted_written, (Chunk.content_write next _).trans ?_⟩
    simp [hc]

theorem clears_iff {contentFate metadataFate} :
    Clears (blob.delete contentFate metadataFate).snd ↔
      (contentFate = .done ∨ blob.content = none) ∧
      (metadataFate = .done ∨ blob.metadata = none) := by
  have content : (blob.delete contentFate metadataFate).snd.content = none ↔
      contentFate = .done ∨ blob.content = none := by
    simp [delete, ite_eq_left_iff, or_iff_not_imp_left]
  have metadata : (blob.delete contentFate metadataFate).snd.metadata = none ↔
      metadataFate = .done ∨ blob.metadata = none := by
    simp [delete, ite_eq_left_iff, or_iff_not_imp_left]
  rw [← content, ← metadata]
  constructor
  · intro h
    exact ⟨h.content, h.metadata⟩
  · rintro ⟨hc, hm⟩
    exact clears_of_none hc hm

-- A failed POST is made good by the same POST when no byte reached the file. A removal that fails is
-- reported like one that does not.
theorem recovers_iff (fails : blob.Fails request fates) :
    (Recovers blob (blob.tryPost request fates).snd request ↔ blob.Spares request fates) ∧
    ∀ (stored : Blob) (contentFate metadataFate : WriteFate),
      Clears (stored.delete contentFate metadataFate).snd ↔
        (contentFate = .done ∨ stored.content = none) ∧
        (metadataFate = .done ∨ stored.metadata = none) :=
  ⟨recovers_iff' fails, fun _ _ _ => clears_iff⟩

-- The last two bytes of three.
def sampleRequest : ChunkRequest :=
  ⟨"0123456789abcdef0123456789abcdef", some "1", some "3", [2, 3], 0⟩

theorem sampleRequest_chunk :
    Chunk.ofRequest sampleRequest = .ok ⟨sampleRequest.id, 1, 3, [2, 3], 0⟩ := by
  have offset : headerUsize sampleRequest.offsetHeader 0 = some 1 := by decide
  have total : headerUsize sampleRequest.totalHeader 0 = some 3 := by decide
  simp only [Chunk.ofRequest, offset, total]
  rfl

def sampleBlob : Blob :=
  ⟨some [1], none⟩

-- The write of the chunk stops.
def sampleFates (written : Nat) : UploadFates :=
  ⟨.done, .done, .done, .failed written, .done⟩

theorem sampleBlob_fails (written : Nat) : sampleBlob.Fails sampleRequest (sampleFates written) := by
  constructor
  · exact (isAccepted_post_iff sampleRequest_chunk).mpr <| .inl rfl
  · simp only [tryPost, sampleRequest_chunk]
    exact Bool.false_ne_true

theorem sampleBlob_recovers_iff :
    Recovers sampleBlob (sampleBlob.tryPost sampleRequest (sampleFates 0)).snd sampleRequest ∧
    Clears (sampleBlob.delete .done .refused).snd := by
  obtain ⟨recovers, clears⟩ := recovers_iff (sampleBlob_fails 0)
  refine ⟨recovers.mpr ?_, (clears _ _ _).mpr ⟨.inl rfl, .inr rfl⟩⟩
  intro _ _ _
  exact .inr ⟨rfl, .inr <| .inr <| .inr rfl⟩

-- After a part of a chunk the chunk itself is refused.
theorem post_of_part {written} (h : Chunk.ofRequest request = .ok chunk) (next : chunk.IsNext blob)
    (start : 0 < written) (part : written < chunk.body.length)
    (hf : failed.content = some (blob.content.getD [] ++ chunk.body.take written)) :
    failed.post request = (.error 409 "blob_chunk_conflict", failed) := by
  have hl : (blob.content.getD [] ++ chunk.body.take written).length = chunk.offset + written := by
    rw [List.length_append, next, List.length_take, Nat.min_eq_left part.le]
  generalize blob.content.getD [] ++ chunk.body.take written = existing at hf hl
  have inside : chunk.offset < existing.length := by omega
  have short : ¬ chunk.finish ≤ existing.length := by rw [Chunk.finish]; omega
  simp only [post, h, hf, if_pos inside, short, false_and, if_false]

-- Sent again at any time, the chunk is refused.
theorem sampleBlob_not_recovers :
    sampleBlob.Fails sampleRequest (sampleFates 1) ∧
    ¬ Recovers sampleBlob (sampleBlob.tryPost sampleRequest (sampleFates 1)).snd sampleRequest ∧
    ∀ now, ¬ ((sampleBlob.tryPost sampleRequest (sampleFates 1)).snd.post
      { sampleRequest with now := now }).fst.isAccepted := by
  have refused (now) : ¬ ((sampleBlob.tryPost sampleRequest (sampleFates 1)).snd.post
      { sampleRequest with now := now }).fst.isAccepted := by
    have next : Chunk.IsNext ⟨sampleRequest.id, 1, 3, [2, 3], now⟩ sampleBlob := rfl
    rw [post_of_part (Chunk.ofRequest_now sampleRequest_chunk now) next Nat.one_pos Nat.one_lt_two]
    · simp [Reply.isAccepted_error]
    · simp only [tryPost, sampleRequest_chunk]
      exact Chunk.content_run rfl
  exact ⟨sampleBlob_fails 1, fun h => refused 0 (h.accepted 0), refused⟩

end Blob

end Relay
