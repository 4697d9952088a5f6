import GroupCoordination.Model.FileTransfer
import Mathlib.Data.Fin.Init

/-!
# Nonces of file chunks

The AES key and the base nonce of a file are exported from the group's epoch under the hash of its
content, so every member that sends the content again in the epoch seals under the same key and the
same nonces. That is harmless as long as a chunk number stands for the same bytes each time.
-/

namespace GroupCoordination

open Fallible

-- -------- The nonce of a chunk

theorem indexByte_inj {i j : Nat} (hi : i < 2 ^ 64) (hj : j < 2 ^ 64)
    (h : ∀ k < 8, indexByte i k = indexByte j k) : i = j := by
  have hdigit : ∀ k < 8, i / 256 ^ k % 256 = j / 256 ^ k % 256 :=
    fun k hk => congrArg Fin.val (h k hk)
  have h0 := hdigit 0 (by decide)
  have h1 := hdigit 1 (by decide)
  have h2 := hdigit 2 (by decide)
  have h3 := hdigit 3 (by decide)
  have h4 := hdigit 4 (by decide)
  have h5 := hdigit 5 (by decide)
  have h6 := hdigit 6 (by decide)
  have h7 := hdigit 7 (by decide)
  omega

theorem xor_byte_inj {b x y : Byte} (h : b ^^^ x = b ^^^ y) : x = y := by
  have hxor := congrArg (b ^^^ ·) h
  simpa [← Fin.xor_assoc (show 256 = 2 ^ 8 by rfl), Fin.xor_comm, Fin.xor_zero] using hxor

theorem nonceForChunk_inj {baseNonce nonce : Bytes} {i j : Nat} (hi : i < 2 ^ 64) (hj : j < 2 ^ 64)
    (h : nonceForChunk baseNonce i = .ok nonce) (h' : nonceForChunk baseNonce j = .ok nonce) :
    i = j := by
  unfold nonceForChunk at h h'
  split at h
  next hlen =>
    rw [if_pos hlen] at h'
    have heq := (Except.ok.inj h).trans (Except.ok.inj h').symm
    refine indexByte_inj hi hj fun k hk => ?_
    have hk' : k < baseNonce.length := by
      rw [hlen]
      exact Nat.lt_trans hk (by decide)
    have hbyte := congrArg (fun l : Bytes => l[k]?) heq
    simp only [List.getElem?_mapIdx, List.getElem?_eq_getElem hk', Option.map_some, if_pos hk,
      Option.some.injEq] at hbyte
    exact xor_byte_inj hbyte
  · cases h

-- -------- What a call seals

variable {sha256 : Bytes → Bytes} {call : PrepareCall} {src : ChunkSource}

theorem encryptChunk_ok {aesKey baseNonce plaintext : Bytes} {i : Nat} {chunk : SealedChunk}
    (h : encryptChunk aesKey baseNonce i plaintext = .ok chunk) :
    chunk.aesKey = aesKey ∧ nonceForChunk baseNonce i = .ok chunk.nonce ∧
      chunk.plaintext = plaintext := by
  obtain ⟨_, -, h⟩ := bind_ok h
  obtain ⟨nonce, hnonce, h⟩ := bind_ok h
  cases h
  exact ⟨rfl, hnonce, rfl⟩

structure ChunkSource.Seals (src : ChunkSource) (plaintext : Bytes) (i : Nat)
    (chunk : SealedChunk) :
    Prop where
  aesKey : chunk.aesKey = src.aesKey
  nonce : nonceForChunk src.baseNonce i = .ok chunk.nonce
  plaintext : chunk.plaintext = (plaintext.drop (i * src.chunkBytes)).take src.chunkBytes

theorem ChunkSource.mem_sealChunks {writes : Nat → Bool} {plaintext : Bytes} {chunk : SealedChunk}
    {chunks i remaining : Nat} (hleft : plaintext.length = i * src.chunkBytes + remaining)
    (h : chunk ∈ (src.sealChunks writes chunks i remaining
      (plaintext.drop (i * src.chunkBytes))).1) :
    ∃ j < i + chunks, src.Seals plaintext j chunk := by
  induction chunks generalizing i remaining with
  | zero => cases h
  | succ chunks ih =>
    unfold sealChunks at h
    dsimp only at h
    split at h
    · cases h
    split at h
    · cases h
    split at h
    · cases h
    rename_i hpos _ sealed hseal
    obtain ⟨hkey, hnonce, hplain⟩ := encryptChunk_ok hseal
    have hsealed : src.Seals plaintext i sealed := by
      refine ⟨hkey, hnonce, hplain.trans ?_⟩
      rw [List.take_eq_take_iff, List.length_drop, hleft]
      omega
    have hhere : ∃ j < i + (chunks + 1), src.Seals plaintext j sealed := ⟨i, by omega, hsealed⟩
    split at h
    · rw [List.mem_singleton.mp h]
      exact hhere
    rcases List.mem_cons.mp h with rfl | h
    · exact hhere
    by_cases hfull : src.chunkBytes ≤ remaining
    · have hnext : plaintext.length = (i + 1) * src.chunkBytes + (remaining - src.chunkBytes) := by
        rw [Nat.add_mul]
        omega
      rw [Nat.min_eq_left hfull, List.drop_drop,
        show i * src.chunkBytes + src.chunkBytes = (i + 1) * src.chunkBytes by
          rw [Nat.add_mul]; omega] at h
      obtain ⟨j, hj, hmem⟩ := ih hnext h
      exact ⟨j, by omega, hmem⟩
    · -- the last chunk: nothing remains to be sealed
      rw [Nat.min_eq_right (by omega), Nat.sub_self] at h
      cases chunks with
      | zero => cases h
      | succ chunks =>
        unfold sealChunks at h
        simp at h

structure PrepareCall.Begins (sha256 : Bytes → Bytes) (call : PrepareCall) (src : ChunkSource) :
    Prop where
  stat : call.stat = .ok ⟨src.size, false⟩
  pos : 0 < src.size
  small : src.size ≤ maxFileTransferBytes
  chunkBytes : src.chunkBytes = call.chunkSize
  chunks : src.chunks = (chunkCount src.size call.chunkSize).toNat
  chunked : 0 < src.chunks
  secret : ∃ content secret, call.hashed = .ok content ∧
    call.exportSecret fileTransferLabel (sha256 content) exportSecretLen = .ok secret ∧
    splitExporterMaterial secret = .ok (src.aesKey, src.baseNonce)
  reopened : call.reopened = .ok src.source

theorem PrepareCall.begin_ok (h : call.begin sha256 = .ok src) : call.Begins sha256 src := by
  obtain ⟨_, -, h⟩ := bind_ok h
  obtain ⟨_, -, h⟩ := bind_ok h
  obtain ⟨fi, hstat, h⟩ := bind_ok h
  obtain ⟨_, hdir, h⟩ := bind_ok h
  obtain ⟨_, hpos, h⟩ := bind_ok h
  obtain ⟨_, hsmall, h⟩ := bind_ok h
  obtain ⟨_, -, h⟩ := bind_ok h
  obtain ⟨_, -, h⟩ := bind_ok h
  obtain ⟨_, hchunked, h⟩ := bind_ok h
  obtain ⟨content, hcontent, h⟩ := bind_ok h
  obtain ⟨secret, hsecret, h⟩ := bind_ok h
  obtain ⟨⟨aesKey, baseNonce⟩, hsplit, h⟩ := bind_ok h
  obtain ⟨fileID, -, h⟩ := bind_ok h
  obtain ⟨_, -, h⟩ := bind_ok h
  obtain ⟨source, hsource, h⟩ := bind_ok h
  cases h
  obtain ⟨size, isDir⟩ := fi
  obtain rfl : isDir = false := require_ok hdir
  exact ⟨hstat, Nat.pos_of_ne_zero (require_ok hpos), require_ok hsmall, rfl, rfl,
    Int.pos_iff_toNat_pos.mp (require_ok hchunked),
    ⟨content, secret, hcontent, mapError_ok hsecret, hsplit⟩, hsource⟩

theorem splitExporterMaterial_ok {secret aesKey baseNonce : Bytes}
    (h : splitExporterMaterial secret = .ok (aesKey, baseNonce)) :
    aesKey = secret.take aesKeyLen ∧ baseNonce = (secret.drop aesKeyLen).take gcmNonceLen ∧
      secret.length = exportSecretLen := by
  unfold splitExporterMaterial at h
  split at h
  · cases h
    exact ⟨rfl, rfl, ‹_›⟩
  · cases h

theorem PrepareCall.chunkSize_pos (call : PrepareCall) : 0 < call.chunkSize := by
  unfold chunkSize
  split
  · decide
  · omega

theorem chunkCount_le {fileSize chunkBytes : Nat} (h : 0 < chunkBytes) :
    chunkCount fileSize chunkBytes ≤ fileSize := by
  unfold chunkCount
  rw [if_neg h.ne']
  have hwrap : int64 (fileSize + chunkBytes - 1) ≤ fileSize + chunkBytes - 1 := by
    unfold int64
    omega
  calc (int64 (fileSize + chunkBytes - 1)).tdiv chunkBytes
    _ ≤ ((fileSize + chunkBytes - 1 : Int)).tdiv chunkBytes := Int.tdiv_le_tdiv (by omega) hwrap
    _ = (fileSize + chunkBytes - 1) / chunkBytes := Int.tdiv_eq_ediv_of_nonneg (by omega)
    _ ≤ fileSize := by
      have hmul : (fileSize : Int) ≤ fileSize * chunkBytes := by
        exact_mod_cast Nat.le_mul_of_pos_right fileSize h
      exact Int.lt_add_one_iff.mp (Int.ediv_lt_of_lt_mul (by omega) (by rw [Int.add_mul]; omega))

/-- The call hashes and encrypts one and the same content: the source does not change meanwhile. -/
structure PrepareCall.Reads (call : PrepareCall) (content : Bytes) : Prop where
  stat : call.stat = .ok ⟨content.length, false⟩
  hashed : call.hashed = .ok content
  reopened : call.reopened = .ok content

variable {content : Bytes} {chunk : SealedChunk}

theorem PrepareCall.Reads.source (h : call.Reads content) (hbegin : call.Begins sha256 src) :
    src.size = content.length ∧ src.source = content := by
  have hstat := hbegin.stat.symm.trans h.stat
  have hsource := hbegin.reopened.symm.trans h.reopened
  exact ⟨congrArg FileInfo.size (Except.ok.inj hstat), Except.ok.inj hsource⟩

theorem PrepareCall.begins_of_mem_sealed
    (h : chunk ∈ (prepareOutgoingFileTransfer sha256 call).sealed) : (call.begin sha256).isOk := by
  unfold prepareOutgoingFileTransfer at h
  cases hbegin : call.begin sha256 with
  | error err =>
    rw [hbegin] at h
    cases h
  | ok src => rfl

theorem PrepareCall.Reads.mem_sealed (h : call.Reads content)
    (hmem : chunk ∈ (prepareOutgoingFileTransfer sha256 call).sealed) :
    ∃ src, call.begin sha256 = .ok src ∧ ∃ i < 2 ^ 64, src.Seals content i chunk := by
  obtain ⟨src, hbegin⟩ := exists_of_isOk (PrepareCall.begins_of_mem_sealed hmem)
  have hbegins := PrepareCall.begin_ok hbegin
  obtain ⟨hsize, hsource⟩ := h.source hbegins
  simp only [prepareOutgoingFileTransfer, hbegin, hsource] at hmem
  have hleft : content.length = 0 * src.chunkBytes + src.size := by omega
  have hfrom : content = content.drop (0 * src.chunkBytes) := by rw [Nat.zero_mul, List.drop_zero]
  rw [hfrom] at hmem
  obtain ⟨i, hi, hseals⟩ := ChunkSource.mem_sealChunks hleft hmem
  refine ⟨src, hbegin, i, ?_, hseals⟩
  have hcount : src.chunks ≤ src.size := by
    rw [hbegins.chunks]
    exact Int.toNat_le.mpr (chunkCount_le call.chunkSize_pos)
  have hsmall := hbegins.small
  unfold maxFileTransferBytes at hsmall
  omega

theorem PrepareCall.Reads.first_sealed (h : call.Reads content)
    (hbegin : call.begin sha256 = .ok src) :
    ∃ chunk ∈ (prepareOutgoingFileTransfer sha256 call).sealed, src.Seals content 0 chunk := by
  have hbegins := PrepareCall.begin_ok hbegin
  obtain ⟨hsize, hsource⟩ := h.source hbegins
  obtain ⟨_, secret, -, -, hsplit⟩ := hbegins.secret
  obtain ⟨hkey, hbase, hlen⟩ := splitExporterMaterial_ok hsplit
  have hchunk := hbegins.chunkBytes ▸ call.chunkSize_pos
  have hpos := hbegins.pos
  have hkeyLen : src.aesKey.length = aesKeyLen := by
    rw [hkey, List.length_take, hlen]
    decide
  have hbaseLen : src.baseNonce.length = gcmNonceLen := by
    rw [hbase, List.length_take, List.length_drop, hlen]
    decide
  let nonce := src.baseNonce.mapIdx fun i b => if i < 8 then b ^^^ indexByte 0 i else b
  have hnonce : nonceForChunk src.baseNonce 0 = .ok nonce := if_pos hbaseLen
  let first : SealedChunk := ⟨src.aesKey, nonce, content.take (min src.chunkBytes src.size)⟩
  have hseal : encryptChunk src.aesKey src.baseNonce 0
    (content.take (min src.chunkBytes src.size)) =
      .ok first := by
    unfold encryptChunk
    rw [require_eq_ok hkeyLen, hnonce]
    rfl
  refine ⟨first, ?_, rfl, hnonce, ?_⟩
  · unfold prepareOutgoingFileTransfer
    simp only [hbegin, hsource]
    obtain ⟨chunks, hchunks⟩ := Nat.exists_eq_succ_of_ne_zero (Nat.ne_of_gt hbegins.chunked)
    rw [hchunks]
    unfold ChunkSource.sealChunks
    dsimp only
    rw [if_neg (by omega), if_neg (by omega), hseal]
    dsimp only
    split
    · exact List.mem_singleton_self first
    · exact List.mem_cons_self
  · rw [Nat.zero_mul, List.drop_zero, List.take_eq_take_iff]
    omega

-- -------- All the calls of an epoch

def sealedChunks (sha256 : Bytes → Bytes) (calls : List PrepareCall) : List SealedChunk :=
  calls.flatMap fun call => (prepareOutgoingFileTransfer sha256 call).sealed

def NoncesUnique (chunks : List SealedChunk) : Prop :=
  ∀ a ∈ chunks, ∀ b ∈ chunks, a.aesKey = b.aesKey → a.nonce = b.nonce → a.plaintext = b.plaintext

instance (chunks : List SealedChunk) : Decidable (NoncesUnique chunks) :=
  inferInstanceAs (Decidable (∀ a ∈ chunks, ∀ b ∈ chunks, _))

def hashedContents (calls : List PrepareCall) : Set Bytes :=
  {content | ∃ call ∈ calls, call.hashed = .ok content}

theorem PrepareCall.Reads.material {exporter : Bytes → Bytes} (h : call.Reads content)
    (hbegin : call.begin sha256 = .ok src)
    (hepoch : ∀ context secret,
      call.exportSecret fileTransferLabel context exportSecretLen = .ok secret →
      secret = exporter context) :
    src.aesKey = (exporter (sha256 content)).take aesKeyLen ∧
      src.baseNonce = ((exporter (sha256 content)).drop aesKeyLen).take gcmNonceLen := by
  obtain ⟨read, secret, hread, hsecret, hsplit⟩ := (PrepareCall.begin_ok hbegin).secret
  obtain rfl : read = content := Except.ok.inj (hread.symm.trans h.hashed)
  obtain ⟨hkey, hbase, -⟩ := splitExporterMaterial_ok hsplit
  rw [← hepoch _ _ hsecret]
  exact ⟨hkey, hbase⟩

theorem chunk_of_fits {size i : Nat} (h : content.length ≤ size) :
    (content.drop (i * size)).take size = if i = 0 then content else [] := by
  split
  · subst i
    rw [Nat.zero_mul, List.drop_zero, List.take_of_length_le h]
  · have hpast : content.length ≤ i * size :=
      Nat.le_trans h (Nat.le_mul_of_pos_left size (by omega))
    rw [List.drop_eq_nil_of_le hpast, List.take_nil]

/-- Whatever the members of an epoch send, if no source that comes to be encrypted changes while it
is prepared: no key and nonce encrypt two different chunks exactly if whenever a content is sent
twice, by whomever, it is cut into chunks of the same size, or fits into one chunk both times. The
members of an epoch share the exporter. Neither the hash nor the AES key that is exported collides
on what is sent. -/
theorem chunk_nonces_unique_iff (sha256 exporter : Bytes → Bytes) (calls : List PrepareCall)
    (hsha : Set.InjOn sha256 (hashedContents calls))
    (hkey : Set.InjOn (fun context => (exporter context).take aesKeyLen)
      (Set.image sha256 (hashedContents calls)))
    (hepoch : ∀ call ∈ calls, ∀ context secret,
      call.exportSecret fileTransferLabel context exportSecretLen = .ok secret →
      secret = exporter context)
    (hread : ∀ call ∈ calls, (call.begin sha256).isOk → ∃ content, call.Reads content) :
    NoncesUnique (sealedChunks sha256 calls) ↔
      ∀ a ∈ calls, ∀ b ∈ calls, ∀ content, a.Reads content → b.Reads content →
        (a.begin sha256).isOk → (b.begin sha256).isOk →
        a.chunkSize = b.chunkSize ∨ content.length ≤ a.chunkSize ∧
        content.length ≤ b.chunkSize := by
  constructor
  · intro hunique a ha b hb content hra hrb hoka hokb
    obtain ⟨sa, hsa⟩ := exists_of_isOk hoka
    obtain ⟨sb, hsb⟩ := exists_of_isOk hokb
    obtain ⟨hkeyA, hbaseA⟩ := hra.material hsa (hepoch a ha)
    obtain ⟨hkeyB, hbaseB⟩ := hrb.material hsb (hepoch b hb)
    -- both seal their first chunk under the nonce of number 0
    obtain ⟨x, hx, hsealsX⟩ := hra.first_sealed hsa
    obtain ⟨y, hy, hsealsY⟩ := hrb.first_sealed hsb
    have hnonce : x.nonce = y.nonce := by
      have hsame := hsealsX.nonce.symm.trans ((hbaseA.trans hbaseB.symm) ▸ hsealsY.nonce)
      exact Except.ok.inj hsame
    have hplain := hunique x (List.mem_flatMap.mpr ⟨a, ha, hx⟩) y (List.mem_flatMap.mpr ⟨b, hb, hy⟩)
      (hsealsX.aesKey.trans (hkeyA.trans (hkeyB.symm.trans hsealsY.aesKey.symm))) hnonce
    rw [hsealsX.plaintext, hsealsY.plaintext, Nat.zero_mul, Nat.zero_mul, List.drop_zero,
      (PrepareCall.begin_ok hsa).chunkBytes, (PrepareCall.begin_ok hsb).chunkBytes,
      List.take_eq_take_iff] at hplain
    omega
  intro hsizes x hx y hy hkeys hnonces
  obtain ⟨a, ha, hx⟩ := List.mem_flatMap.mp hx
  obtain ⟨b, hb, hy⟩ := List.mem_flatMap.mp hy
  obtain ⟨content, hra⟩ := hread a ha (PrepareCall.begins_of_mem_sealed hx)
  obtain ⟨content', hrb⟩ := hread b hb (PrepareCall.begins_of_mem_sealed hy)
  obtain ⟨sa, hsa, i, hi, hsealsX⟩ := hra.mem_sealed hx
  obtain ⟨sb, hsb, j, hj, hsealsY⟩ := hrb.mem_sealed hy
  obtain ⟨hkeyA, hbaseA⟩ := hra.material hsa (hepoch a ha)
  obtain ⟨hkeyB, hbaseB⟩ := hrb.material hsb (hepoch b hb)
  -- the key gives the content away, and with it the base nonce; the nonce then gives the number
  rw [hsealsX.aesKey, hsealsY.aesKey, hkeyA, hkeyB] at hkeys
  have hhashA : content ∈ hashedContents calls := ⟨a, ha, hra.hashed⟩
  have hhashB : content' ∈ hashedContents calls := ⟨b, hb, hrb.hashed⟩
  obtain rfl : content = content' :=
    hsha hhashA hhashB (hkey (Set.mem_image_of_mem _ hhashA) (Set.mem_image_of_mem _ hhashB) hkeys)
  have hnonceY := hsealsY.nonce
  rw [hbaseB, ← hbaseA, ← hnonces] at hnonceY
  obtain rfl : i = j := nonceForChunk_inj hi hj hsealsX.nonce hnonceY
  rw [hsealsX.plaintext, hsealsY.plaintext, (PrepareCall.begin_ok hsa).chunkBytes,
    (PrepareCall.begin_ok hsb).chunkBytes]
  rcases hsizes a ha b hb content hra hrb (by rw [hsa]; rfl) (by rw [hsb]; rfl) with hsize |
    ⟨hfitsA, hfitsB⟩
  · rw [hsize]
  · rw [chunk_of_fits hfitsA, chunk_of_fits hfitsB]

namespace Reference

/-- An exporter that pads its context to 44 bytes. -/
def fileExporter (context : Bytes) : Bytes :=
  (context ++ List.replicate exportSecretLen 0).take exportSecretLen

/-- A member sends a file that reads as `hashed` first and as `reopened` then. -/
def fileCall (chunkBytes : Int) (hashed reopened : Bytes) : PrepareCall where
  groupID := "g"
  stat := .ok ⟨hashed.length, false⟩
  chunkBytes
  hashed := .ok hashed
  exportSecret _ context _ := .ok (fileExporter context)
  fileID := .ok "f"
  reopened := .ok reopened

theorem fileCall_reads (chunkBytes : Int) (content : Bytes) :
    (fileCall chunkBytes content content).Reads content := ⟨rfl, rfl, rfl⟩

def resentFiles : List PrepareCall :=
  [fileCall 2 [1, 2, 3] [1, 2, 3], fileCall 2 [1, 2, 3] [1, 2, 3], fileCall 1 [4, 5] [4, 5]]

end Reference

open Reference in
/-- Files that are sent again with the chunk size they had keep the nonces unique. -/
theorem resent_files_keep_nonces_unique :
    (sealedChunks id resentFiles).length = 6 ∧
      NoncesUnique (sealedChunks id resentFiles) := by
  have hcontents : ∀ content, content ∈ hashedContents resentFiles →
      content = [1, 2, 3] ∨ content = [4, 5] := by
    rintro content ⟨call, hcall, hhashed⟩
    simp only [resentFiles, List.mem_cons, List.not_mem_nil, or_false] at hcall
    rcases hcall with rfl | rfl | rfl
    · exact .inl (Except.ok.inj hhashed).symm
    · exact .inl (Except.ok.inj hhashed).symm
    · exact .inr (Except.ok.inj hhashed).symm
  refine ⟨by decide +kernel, (chunk_nonces_unique_iff id fileExporter resentFiles
    Function.injective_id.injOn ?_ ?_ ?_).mpr ?_⟩
  · rw [Set.image_id]
    intro c hc c' hc' heq
    rcases hcontents c hc with rfl | rfl <;> rcases hcontents c' hc' with rfl | rfl
    · rfl
    · exact absurd heq (by decide)
    · exact absurd heq (by decide)
    · rfl
  · intro call hcall context secret hsecret
    simp only [resentFiles, List.mem_cons, List.not_mem_nil, or_false] at hcall
    rcases hcall with rfl | rfl | rfl <;> exact (Except.ok.inj hsecret).symm
  · intro call hcall _
    simp only [resentFiles, List.mem_cons, List.not_mem_nil, or_false] at hcall
    rcases hcall with rfl | rfl | rfl <;> exact ⟨_, fileCall_reads _ _⟩
  intro a ha b hb content hra hrb _ _
  simp only [resentFiles, List.mem_cons, List.not_mem_nil, or_false] at ha hb
  rcases ha with rfl | rfl | rfl <;> rcases hb with rfl | rfl | rfl <;>
    first
    | exact .inl rfl
    | exact absurd (Except.ok.inj (hra.hashed.trans hrb.hashed.symm)) (by decide)

open Reference in
/-- The same file sent with two chunk sizes, and a file that changes after it was hashed, encrypt
two plaintexts under one key and nonce. -/
theorem nonces_reused :
    ¬ NoncesUnique (sealedChunks id
        [fileCall 2 [1, 2, 3] [1, 2, 3], fileCall 1 [1, 2, 3] [1, 2, 3]]) ∧
      ¬ NoncesUnique (sealedChunks id [fileCall 2 [1, 2] [1, 2], fileCall 2 [1, 2] [3, 4]]) := by
  decide +kernel

end GroupCoordination
