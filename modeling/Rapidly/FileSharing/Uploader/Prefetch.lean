import Rapidly.FileSharing.Uploader.Stretches

/-!
# What a send loop has prefetched

While a chunk is encrypted and sent, the loop reads the slice of the next one. Its two variables
for that, the promise and the buffer, are filled and emptied at different suspension points, and
a chunk is right only if the buffer has the slice at the loop's offset by the time it is used.

`Coherent` says what the two variables may hold at each suspension point, and what the bytes are
that the point keeps. Every wake keeps it (`Suspends.coherent`), and the chunk that a coherent
loop sends is the slice at its offset, encrypted if there is a key (`MaySend.encodes`).
`wakesLeft` counts down to that chunk.
-/

namespace Rapidly.FileSharing.Uploader

variable {W : WebCrypto} {iv : Bytes} {loop loop' : SendLoop} {point point' : SendPoint}

namespace SendLoop

/-- The slice after the current one is being read, or is not there. -/
def Prefetching (loop : SendLoop) : Prop :=
  loop.prefetchedBuffer = none ∧ ∀ start ∈ loop.prefetchPromise, start = loop.stop

/-- The slice after the current one was read, or is not there. -/
def Prefetched (loop : SendLoop) : Prop :=
  loop.prefetchPromise = none ∧
    ∀ buffer ∈ loop.prefetchedBuffer, buffer = loop.prefetched loop.stop

/-- The bytes are the current slice, encrypted under the file key if there is one. -/
def Encodes (W : WebCrypto) (loop : SendLoop) (chunkBytes : Bytes) : Prop :=
  match loop.fileKeyPromise with
  | none => chunkBytes = loop.plaintext
  | some fileKey => ∃ key iv, fileKey = some key ∧ iv.length = WebCrypto.ivLength ∧
      chunkBytes = W.encryptChunk key iv loop.plaintext

/-- What the variables of a loop hold at a suspension point. -/
def Coherent (W : WebCrypto) (loop : SendLoop) : SendPoint → Prop
  | .scheduled =>
    loop.prefetchPromise = none ∧ ∀ buffer ∈ loop.prefetchedBuffer, buffer = loop.plaintext
  | .reading => loop.prefetchPromise = none ∧ loop.prefetchedBuffer = none
  | .awaitingKey plaintext => plaintext = loop.plaintext ∧ loop.Prefetching
  | .encrypting fileKey plaintext =>
    plaintext = loop.plaintext ∧ loop.fileKeyPromise = some (some fileKey) ∧ loop.Prefetching
  | .prefetching chunkBytes => loop.Encodes W chunkBytes ∧ loop.Prefetching
  | .buffering chunkBytes => loop.Encodes W chunkBytes ∧ loop.Prefetched
  | .sent => loop.Prefetched

end SendLoop

namespace SendPoint

/-- A chunk is being encrypted. -/
def isEncrypting : SendPoint → Bool
  | .encrypting _ _ => true
  | _ => false

/-- How often a loop has to be woken, at most, until it has sent one more chunk. -/
def wakesLeft : SendPoint → ℕ
  | .sent => 7
  | .scheduled => 6
  | .reading => 5
  | .awaitingKey _ => 4
  | .encrypting _ _ => 3
  | .prefetching _ => 2
  | .buffering _ => 1

theorem wakesLeft_pos (point : SendPoint) : 0 < point.wakesLeft := by
  cases point <;> exact Nat.succ_pos _

end SendPoint

theorem prefetching_prefetchNext (hbuffer : loop.prefetchedBuffer = none)
    (hpromise : loop.prefetchPromise = none) : loop.prefetchNext.Prefetching := by
  rw [SendLoop.prefetchNext]
  split
  · refine ⟨hbuffer, fun start hstart => ?_⟩
    rw [hpromise] at hstart
    exact absurd hstart (Option.not_mem_none start)
  · refine ⟨hbuffer, fun start hstart => ?_⟩
    rw [SendLoop.startPrefetch] at hstart
    split at hstart
    · exact absurd hstart (Option.not_mem_none start)
    · exact (Option.some.inj hstart).symm

theorem ReadsSlice.prefetching {plaintext : Bytes} (h : ReadsSlice loop point loop' plaintext)
    (hcoherent : loop.Coherent W point) :
    plaintext = loop'.plaintext ∧ loop'.Prefetching := by
  obtain ⟨⟨buffer, promise, hsame⟩, -⟩ := h.sameChunk
  have hplaintext : loop'.plaintext = loop.plaintext := by rw [hsame]; rfl
  rw [hplaintext]
  cases h with
  | prefetched hbuffer =>
    exact ⟨hcoherent.2 _ hbuffer, prefetching_prefetchNext rfl hcoherent.1⟩
  | read => exact ⟨rfl, prefetching_prefetchNext hcoherent.2 hcoherent.1⟩

theorem HasChunk.prefetching {chunkBytes : Bytes} (h : HasChunk W iv loop point loop' chunkBytes)
    (hcoherent : loop.Coherent W point)
    (hiv : point.isEncrypting → iv.length = WebCrypto.ivLength) :
    loop'.Encodes W chunkBytes ∧ loop'.Prefetching := by
  cases h with
  | plain hread hkey =>
    obtain ⟨hplaintext, hprefetching⟩ := hread.prefetching hcoherent
    refine ⟨?_, hprefetching⟩
    rw [SendLoop.Encodes, hkey]
    exact hplaintext
  | encrypted =>
    obtain ⟨rfl, hkey, hprefetching⟩ := hcoherent
    refine ⟨?_, hprefetching⟩
    rw [SendLoop.Encodes, hkey]
    exact ⟨_, iv, rfl, hiv rfl, rfl⟩

/-- **The chunk of a coherent loop.** It is the slice at the loop's offset. -/
theorem MaySend.encodes {chunkBytes : Bytes} (h : MaySend W iv loop point loop' chunkBytes)
    (hcoherent : loop.Coherent W point)
    (hiv : point.isEncrypting → iv.length = WebCrypto.ivLength) :
    loop'.Encodes W chunkBytes ∧ loop'.Prefetched := by
  cases h with
  | unprefetched hchunk hpromise =>
    obtain ⟨hencodes, hbuffer, -⟩ := hchunk.prefetching hcoherent hiv
    refine ⟨hencodes, hpromise, fun buffer hmem => ?_⟩
    rw [hbuffer] at hmem
    exact absurd hmem (Option.not_mem_none buffer)
  | prefetched =>
    obtain ⟨hencodes, -, hpromise⟩ := hcoherent
    refine ⟨hencodes, rfl, fun buffer hmem => ?_⟩
    obtain ⟨start, hstart, rfl⟩ := Option.map_eq_some_iff.mp hmem
    rw [hpromise start hstart]
    rfl

/-- **One wake keeps a loop coherent.** -/
theorem Suspends.coherent (h : Suspends W iv loop point loop' point')
    (hcoherent : loop.Coherent W point)
    (hiv : point.isEncrypting → iv.length = WebCrypto.ivLength) :
    loop'.Coherent W point' := by
  cases h with
  | reading hbuffer => exact ⟨hcoherent.1, hbuffer⟩
  | awaitingKey hread => exact hread.prefetching hcoherent
  | encrypting hkey => exact ⟨hcoherent.1, hkey, hcoherent.2⟩
  | prefetching hchunk => exact hchunk.prefetching hcoherent hiv
  | buffering hsend => exact hsend.encodes hcoherent hiv
  -- the slice that was prefetched is the one at the offset the loop moves to
  | scheduled => exact hcoherent

/-! ### Counting down -/

theorem ReadsSlice.lt_wakesLeft {plaintext : Bytes} (h : ReadsSlice loop point loop' plaintext) :
    4 < point.wakesLeft := by
  cases h <;> decide

theorem HasChunk.lt_wakesLeft {chunkBytes : Bytes}
    (h : HasChunk W iv loop point loop' chunkBytes) : 2 < point.wakesLeft := by
  cases h with
  | plain hread => exact (by decide : 2 < 4).trans hread.lt_wakesLeft
  | encrypted => exact Nat.lt_succ_self 2

theorem MaySend.lt_wakesLeft {chunkBytes : Bytes}
    (h : MaySend W iv loop point loop' chunkBytes) : 1 < point.wakesLeft := by
  cases h with
  | unprefetched hchunk => exact (by decide : 1 < 2).trans hchunk.lt_wakesLeft
  | prefetched => exact Nat.lt_succ_self 1

theorem Suspends.wakesLeft_lt (h : Suspends W iv loop point loop' point') :
    point'.wakesLeft < point.wakesLeft := by
  cases h with
  | reading => exact Nat.lt_succ_self 5
  | awaitingKey hread => exact hread.lt_wakesLeft
  | encrypting => exact Nat.lt_succ_self 3
  | prefetching hchunk => exact hchunk.lt_wakesLeft
  | buffering hsend => exact hsend.lt_wakesLeft
  | scheduled => exact Nat.lt_succ_self 6

end Rapidly.FileSharing.Uploader
