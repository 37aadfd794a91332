import Iroh.Common.Postcard
import Iroh.Blobs.ChunkTree
import Iroh.Blobs.Range

/-!
# Bitfields

Reference: `blobs/bitfield.go`.

What a provider says it has of a blob, and the frame in which it says so.
-/

namespace Iroh.Blobs

structure Bitfield where
  size : UInt64
  ranges : ChunkRanges
deriving DecidableEq

def maxObserveItemSize : ℕ := 1024 * 1024

namespace Bitfield

/-- `chunkCount`, which unlike the count of the chunk codec cannot overflow. -/
def chunkCount (size : UInt64) : UInt64 := if size = 0 then 0 else (size - 1) / 1024 + 1

def containsChunk (ranges : ChunkRanges) (chunk : UInt64) : Bool :=
  let r := ranges.normalize
  r.ranges.any (fun cr => cr.start ≤ chunk && chunk < cr.stop) || r.openStart.any (· ≤ chunk)

def chunkRangeCovered (r : ChunkRange) (ranges : ChunkRanges) : Bool :=
  if r.start ≥ r.stop then true
  else ranges.ranges.any (fun cr => cr.start ≤ r.start && r.stop ≤ cr.stop) ||
    ranges.openStart.any (· ≤ r.start)

def chunkRangesSubset (need have' : ChunkRanges) : Bool :=
  let n := need.normalize
  let h := have'.normalize
  n.ranges.all (fun cr => chunkRangeCovered cr h) &&
    match n.openStart with
    | none => true
    | some start => h.openStart.any (· ≤ start)

def complete (size : UInt64) : Bitfield := ⟨size, .rangeAll⟩

def new (size : UInt64) (ranges : ChunkRanges) : Bitfield :=
  if size = 0 then ⟨size, ranges.normalize⟩
  else
    let stop := chunkCount size
    if chunkRangesSubset (.rangeChunks 0 stop) ranges then complete size
    else if containsChunk ranges (stop - 1) then
      ⟨size, ChunkRanges.normalize ⟨ranges.normalize.ranges, some stop⟩⟩
    else ⟨size, ranges.normalize⟩

def chunkRangeBoundaries (ranges : ChunkRanges) : List UInt64 :=
  let r := ranges.normalize
  r.ranges.flatMap (fun cr => [cr.start, cr.stop]) ++ r.openStart.toList

def encodeObserveItem (b : Bitfield) : Bytes :=
  Postcard.varint b.size.toNat ++
    Postcard.slice (fun n : UInt64 => Postcard.varint n.toNat) (chunkRangeBoundaries b.ranges)

end Bitfield

end Iroh.Blobs
