import Kemu.Disk.Qcow.Read

/-!
# QCOW images: allocation and the write path

The functions behind `qcow_write_sector`, with the refcount blocks and the
allocator they use.  The search of the allocator and the growth of the
refcount table are bounded by a number of turns; an operation that needs
more of them has no result.

The allocator reports an error as the offset with all bits set, and its two
callers take their error branch for every other offset.
-/

namespace Kemu.Disk.Qcow

open Kemu.Lib.LruCache
open Kemu.Lib.SearchTree
open Kemu.Util.IoVector
open Kemu.Util.ReadWrite

/-- `(u64)-1`, the offset for an allocation error. -/
def allocError : Nat := 2 ^ 64 - 1

/-- `(u16)-1`, the refcount for a reading error. -/
def refcountError : Nat := 2 ^ 16 - 1

/-- `offset & ~(size - 1)` for a power of two. -/
def alignDown (offset size : Nat) : Nat :=
  offset - offset % size

/-- `qcow_pwrite_sync`. -/
def qcowPwriteSync (file : HostFile) (buf : Buffer) (count offset : Nat) :
    Bool × HostFile :=
  match pwriteInFull file buf 0 count offset with
  | (false, file) => (false, file)
  | (true, file) => fdatasync file

/-- `c->dirty`. -/
def QcowState.tableDirty (q : QcowState) (c : Node Nat) : Bool :=
  ((q.l2Cache.heap c.obj).map QcowL2Table.dirty).getD false

/-- `qcow_l2_cache_write`. -/
def qcowL2CacheWrite (q : QcowState) (c : Node Nat) : Bool × QcowState :=
  if q.tableDirty c then
    match qcowPwriteSync q.file (q.tableOf c) (q.header.l2Size * 8)
        c.key with
    | (false, file) => (false, { q with file := file })
    | (true, file) =>
        (true,
          { q with
            file := file
            l2Cache := q.l2Cache.modify c ({ · with dirty := false }) })
  else
    (true, q)

/-- `qcow_write_l1_table`. -/
def qcowWriteL1Table (q : QcowState) : Bool × QcowState :=
  let (written, file) :=
    qcowPwriteSync q.file q.l1Table (q.header.l1Size * 8)
      q.header.l1TableOffset
  (written, { q with file := file })

/-- `qcow_write_refcount_table`. -/
def qcowWriteRefcountTable (q : QcowState) : Bool × QcowState :=
  let (written, file) :=
    qcowPwriteSync q.file q.rfTable (q.header.rfSize * 8)
      q.header.refcountTableOffset
  (written, { q with file := file })

/-! ## Refcount blocks -/

/-- The entry of the refcount table for a cluster. -/
def getRftIndex (header : QcowHeader) (clustIdx : Nat) : Nat :=
  clustIdx >>> (header.clusterBits - 1)

/-- The entry of the refcount block for a cluster. -/
def getRfbIndex (header : QcowHeader) (clustIdx : Nat) : Nat :=
  clustIdx &&& (1 <<< (header.clusterBits - 1) - 1)

/--
`new_refcount_block`, once there is memory: the flag and the entries are
not set.
-/
def QcowState.newRefcountBlock (q : QcowState) : QcowRefcountBlock where
  size := q.header.clusterSize / 2
  dirty := q.fresh 0 != 0
  entries position := q.fresh (position + 1)

/-- `*rfb`. -/
def QcowState.blockOf (q : QcowState) (rfb : Node Nat) :
    QcowRefcountBlock :=
  (q.rfCache.heap rfb.obj).getD q.newRefcountBlock

/-- `write_refcount_block`. -/
def writeRefcountBlock (q : QcowState) (rfb : Node Nat) :
    Bool × QcowState :=
  let block := q.blockOf rfb
  if block.dirty then
    match qcowPwriteSync q.file block.entries (block.size * 2) rfb.key with
    | (false, file) => (false, { q with file := file })
    | (true, file) =>
        (true,
          { q with
            file := file
            rfCache := q.rfCache.modify rfb ({ · with dirty := false }) })
  else
    (true, q)

/-- What `qcow_read_refcount_block` returns. -/
inductive BlockResult where
  /-- A block. -/
  | found (rfb : Node Nat)
  /-- `ERR_PTR(-ENOSPC)`. -/
  | noSpace
  /-- A null pointer. -/
  | failed

section Operations

variable (lib : Rebalancer (Node Nat))

/-- `qcow_read_refcount_block`. -/
def qcowReadRefcountBlock (q : QcowState) (clustIdx : Nat) :
    BlockResult × QcowState :=
  let rftIdx := getRftIndex q.header clustIdx
  if q.header.rfSize ≤ rftIdx then
    (.noSpace, q)
  else
    let rfbOffset := be64 q.rfTable (rftIdx * 8)
    if rfbOffset = 0 then
      (.noSpace, q)
    else
      match q.rfCache.lookup rfbOffset with
      | some rfb =>
          (.found rfb, { q with rfCache := q.rfCache.touch rfb })
      | none =>
          match q.callocs with
          | (false, q) => (.failed, q)
          | (true, q) =>
              let block := q.newRefcountBlock
              match preadInFull q.file block.entries 0 (block.size * 2)
                  rfbOffset with
              | (none, _, file) => (.failed, { q with file := file })
              | (some _, entries, file) =>
                  let (rfb, cache) :=
                    q.rfCache.add lib maxCacheNodes rfbOffset
                      { block with entries := entries }
                  (.found rfb, { q with rfCache := cache, file := file })

/-- `qcow_get_refcount`. -/
def qcowGetRefcount (q : QcowState) (clustIdx : Nat) : Nat × QcowState :=
  match qcowReadRefcountBlock lib q clustIdx with
  | (.noSpace, q) => (0, q)
  | (.failed, q) => (refcountError, q)
  | (.found rfb, q) =>
      let rfbIdx := getRfbIndex q.header clustIdx
      if (q.blockOf rfb).size ≤ rfbIdx then
        (refcountError, q)
      else
        (be16 (q.blockOf rfb).entries (rfbIdx * 2), q)

/-- The end of `update_cluster_refcount`, once the block is known. -/
def updateBlock (q : QcowState) (rfb : Node Nat) (clustIdx append : Nat) :
    Bool × QcowState :=
  let rfbIdx := getRfbIndex q.header clustIdx
  let q :=
    { q with strayed := q.strayed || (q.rfCache.heap rfb.obj).isNone }
  if (q.blockOf rfb).size ≤ rfbIdx then
    (false, q)
  else
    let refcount :=
      (be16 (q.blockOf rfb).entries (rfbIdx * 2) + append) % 2 ^ 16
    let q :=
      { q with
        rfCache :=
          q.rfCache.modify rfb fun block =>
            { block with
              entries := putNumber 2 block.entries (rfbIdx * 2) refcount
              dirty := true } }
    match writeRefcountBlock q rfb with
    | (false, q) => (false, q)
    | (true, q) =>
        if refcount = 0 ∧ clustIdx < q.freeClustIdx then
          (true, { q with freeClustIdx := clustIdx })
        else
          (true, q)

/-! ## Allocation -/

/-- A function that adds to the refcount of a cluster. -/
abbrev Updater := QcowState → Nat → Nat → Option (Bool × QcowState)

/--
The search of `qcow_alloc_clusters`: the index behind the clusters found,
`none` inside for a reading error.  A cluster in use restarts the count.
-/
def findClusters :
    Nat → QcowState → Nat → Nat → Nat → Option (Option Nat × QcowState)
  | 0, _, _, _, _ => none
  | turns + 1, q, clustNum, i, clustIdx =>
      if i < clustNum then
        let clustIdx := q.freeClustIdx % 2 ^ 32
        let q :=
          { q with freeClustIdx := (q.freeClustIdx + 1) % 2 ^ 64 }
        let (clustRefcount, q) := qcowGetRefcount lib q clustIdx
        if clustRefcount = refcountError then
          some (none, q)
        else if 0 < clustRefcount then
          findClusters turns q clustNum 0 clustIdx
        else
          findClusters turns q clustNum ((i + 1) % 2 ^ 32) clustIdx
      else
        some (some ((clustIdx + 1) % 2 ^ 32), q)

/-- The loop of `qcow_alloc_clusters` that counts its clusters. -/
def takeClusters (update : Updater) :
    Nat → QcowState → Nat → Option (Bool × QcowState)
  | 0, q, _ => some (true, q)
  | remaining + 1, q, clustIdx =>
      match update q clustIdx 1 with
      | none => none
      | some (false, q) => some (false, q)
      | some (true, q) =>
          takeClusters update remaining q ((clustIdx + 1) % 2 ^ 64)

/-- `qcow_alloc_clusters`. -/
def qcowAllocClusters (turns : Nat) (update : Updater) (q : QcowState)
    (size : Nat) (updateRef : Bool) : Option (Nat × QcowState) :=
  let clustNum :=
    ((size + (q.header.clusterSize - 1)) % 2 ^ 64) >>>
      q.header.clusterBits
  match findClusters lib turns q clustNum 0 0 with
  | none => none
  | some (none, q) => some (allocError, q)
  | some (some clustIdx, q) =>
      let first := (clustIdx + 2 ^ 64 - clustNum) % 2 ^ 64
      let start := first <<< q.header.clusterBits % 2 ^ 64
      if updateRef then
        match takeClusters update clustNum q first with
        | none => none
        | some (false, q) => some (allocError, q)
        | some (true, q) => some (start, q)
      else
        some (start, q)

/-- `qcow_grow_refcount_block`. -/
def qcowGrowRefcountBlock (turns : Nat) (update : Updater)
    (q : QcowState) (clustIdx : Nat) :
    Option (Option (Node Nat) × QcowState) :=
  let rftIdx := getRftIndex q.header clustIdx
  if q.header.rfSize ≤ rftIdx then
    some (none, q)
  else
    match qcowAllocClusters lib turns update q q.header.clusterSize
        false with
    | none => none
    | some (newBlockOffset, q) =>
        if newBlockOffset = allocError then
          some (none, q)
        else
          match q.callocs with
          | (false, q) => some (none, q)
          | (true, q) =>
              let (rfb, cache) :=
                q.rfCache.allocate newBlockOffset
                  { q.newRefcountBlock with
                    entries := fun _ => 0
                    dirty := true }
              match writeRefcountBlock { q with rfCache := cache } rfb with
              | (false, q) =>
                  some (none, { q with rfCache := q.rfCache.discard rfb })
              | (true, q) =>
                  let q :=
                    { q with
                      rfCache := q.rfCache.insert lib maxCacheNodes rfb
                      rfTable :=
                        putNumber 8 q.rfTable (rftIdx * 8)
                          newBlockOffset }
                  let recover (q : QcowState) : QcowState :=
                    { q with
                      rfTable := putNumber 8 q.rfTable (rftIdx * 8) 0
                      rfCache := q.rfCache.discard rfb }
                  match update q
                      (newBlockOffset >>> q.header.clusterBits) 1 with
                  | none => none
                  | some (false, q) => some (none, recover q)
                  | some (true, q) =>
                      match qcowWriteRefcountTable q with
                      | (false, q) => some (none, recover q)
                      | (true, q) => some (some rfb, q)

/--
`update_cluster_refcount`, with the number of nested growths it may make.
-/
def updateClusterRefcount (turns : Nat) : Nat → Updater
  | 0, _, _, _ => none
  | depth + 1, q, clustIdx, append =>
      match qcowReadRefcountBlock lib q clustIdx with
      | (.failed, q) => some (false, q)
      | (.found rfb, q) => some (updateBlock q rfb clustIdx append)
      | (.noSpace, q) =>
          match qcowGrowRefcountBlock lib turns
              (updateClusterRefcount turns depth) q clustIdx with
          | none => none
          | some (none, q) => some (false, q)
          | some (some rfb, q) => some (updateBlock q rfb clustIdx append)

variable (turns : Nat)

/--
The updater of the callers outside: each growth fills an entry of the
refcount table.
-/
def updater (q : QcowState) : Updater :=
  updateClusterRefcount lib turns (q.header.rfSize + 1)

/-- The loop of `qcow_free_clusters`, which ignores what the updates say. -/
def freeLoop : Nat → QcowState → Nat → Nat → Option QcowState
  | 0, _, _, _ => none
  | rest + 1, q, offset, last =>
      if offset ≤ last then
        match updater lib turns q q (offset >>> q.header.clusterBits)
            (2 ^ 16 - 1) with
        | none => none
        | some (_, q) =>
            freeLoop rest q ((offset + q.header.clusterSize) % 2 ^ 64) last
      else
        some q

/-- `qcow_free_clusters`. -/
def qcowFreeClusters (q : QcowState) (clustStart size : Nat) :
    Option QcowState :=
  let start := alignDown clustStart q.header.clusterSize
  let last :=
    alignDown ((clustStart + size + 2 ^ 64 - 1) % 2 ^ 64)
      q.header.clusterSize
  freeLoop lib turns turns q start last

/-! ## The table for a write -/

/-- `free_cluster:` and `error:`. -/
def failFreeing {Result : Type} (q : QcowState) (clustNewStart : Nat) :
    Option (Option Result × QcowState) :=
  match qcowFreeClusters lib turns q clustNewStart q.header.clusterSize with
  | none => none
  | some q => some (none, q)

/--
`get_cluster_table`: the table and the index in it, `none` inside for -1.
-/
def getClusterTable (q : QcowState) (offset : Nat) :
    Option (Option (Node Nat × Nat) × QcowState) :=
  let l1tIdx := getL1Index q.header offset
  let l2tIdx := getL2Index q.header offset
  if q.header.l1Size ≤ l1tIdx then
    some (none, q)
  else if q.header.l2Size ≤ l2tIdx then
    some (none, q)
  else
    let l2tOffset := be64 q.l1Table (l1tIdx * 8)
    if l2tOffset &&& oflagTop != 0 then
      match qcowReadL2Table lib q (l2tOffset &&& maskBelow 63) with
      | (none, q) => some (none, q)
      | (some l2t, q) => some (some (l2t, l2tIdx), q)
    else
      match qcowAllocClusters lib turns (updater lib turns q) q
          (q.header.l2Size * 8) true with
      | none => none
      | some (l2tNewOffset, q) =>
          if l2tNewOffset ≠ allocError then
            some (none, q)
          else
            match q.callocs with
            | (false, q) => failFreeing lib turns q l2tNewOffset
            | (true, q) =>
                let (l2t, cache) :=
                  q.l2Cache.allocate l2tNewOffset ⟨false, fun _ => 0⟩
                let q := { q with l2Cache := cache }
                let (l2t, q) :=
                  if l2tOffset ≠ 0 then
                    qcowReadL2Table lib q l2tOffset
                  else
                    (some l2t, q)
                match l2t with
                | none => failFreeing lib turns q l2tNewOffset
                | some l2t =>
                    let q :=
                      { q with
                        l2Cache :=
                          q.l2Cache.modify l2t ({ · with dirty := true }) }
                    match qcowL2CacheWrite q l2t with
                    | (false, q) =>
                        failFreeing lib turns
                          { q with l2Cache := q.l2Cache.discard l2t }
                          l2tNewOffset
                    | (true, q) =>
                        let q :=
                          { q with
                            l2Cache :=
                              q.l2Cache.insert lib maxCacheNodes l2t
                            l1Table :=
                              putNumber 8 q.l1Table (l1tIdx * 8)
                                (l2tNewOffset ||| oflagTop) }
                        match qcowWriteL1Table q with
                        | (false, q) =>
                            failFreeing lib turns
                              { q with l2Cache := q.l2Cache.discard l2t }
                              l2tNewOffset
                        | (true, q) =>
                            match qcowFreeClusters lib turns q l2tOffset
                                q.header.clusterSize with
                            | none => none
                            | some q => some (some (l2t, l2tIdx), q)

/-! ## Clusters -/

variable (inflate : Inflate)

/-- The cluster in `q->copy_buff`, before the new data goes in. -/
def fillCopyBuff (q : QcowState) (offset clustStart : Nat) :
    Bool × QcowState :=
  if clustStart ≠ 0 then
    let (result, copyBuff, q) :=
      qcow2ReadCluster lib inflate q offset q.copyBuff 0
        q.header.clusterSize
    (result.isSome, { q with copyBuff := copyBuff })
  else
    (true,
      { q with
        copyBuff :=
          store q.copyBuff 0 q.header.clusterSize (fun _ => 0) 0 })

/-- The clusters an L2 entry gave up: where they start and their size. -/
def oldExtent (header : QcowHeader) (entry : Nat) : Nat × Nat :=
  let clustStart := entry &&& maskBelow 62
  if entry &&& qcow2OflagCompressed != 0 then
    let csizeShift := 62 - (header.clusterBits - 8)
    let sectors :=
      ((clustStart >>> csizeShift) &&& maskBelow (header.clusterBits - 8))
        + 1
    (alignDown (clustStart &&& maskBelow csizeShift) 512,
      asOffT (asInt (sectors * 512)))
  else
    (clustStart, header.clusterSize)

/-- The part of `qcow_write_cluster` for a cluster that is not copied. -/
def writeNewCluster (q : QcowState) (l2t : Node Nat)
    (l2tIdx entry offset : Nat) (mem : Buffer) (buf len : Nat) :
    Option (Option Nat × QcowState) :=
  let clustStart := entry &&& maskBelow 62
  match qcowAllocClusters lib turns (updater lib turns q) q
      q.header.clusterSize true with
  | none => none
  | some (clustNewStart, q) =>
      if clustNewStart ≠ allocError then
        some (none, q)
      else
        match fillCopyBuff lib inflate q
            (alignDown offset q.header.clusterSize) clustStart with
        | (false, q) => failFreeing lib turns q clustNewStart
        | (true, q) =>
            let q :=
              { q with
                copyBuff :=
                  store q.copyBuff (getClusterOffset q.header offset) len
                    mem buf }
            match pwriteInFull q.file q.copyBuff 0 q.header.clusterSize
                clustNewStart with
            | (false, file) =>
                failFreeing lib turns { q with file := file } clustNewStart
            | (true, file) =>
                let q :=
                  { q with
                    file := file
                    l2Cache :=
                      q.l2Cache.modify l2t fun c =>
                        { c with
                          table :=
                            putNumber 8 c.table (l2tIdx * 8)
                              (clustNewStart ||| oflagTop)
                          dirty := true } }
                match qcowL2CacheWrite q l2t with
                | (false, q) => failFreeing lib turns q clustNewStart
                | (true, q) =>
                    let (oldStart, size) := oldExtent q.header entry
                    if entry &&& qcow2OflagCompressed != 0 ∨
                        oldStart ≠ 0 then
                      match qcowFreeClusters lib turns q oldStart size with
                      | none => none
                      | some q => some (some len, q)
                    else
                      some (some len, q)

/-- `qcow_write_cluster`: the number of bytes, `none` inside for -1. -/
def qcowWriteCluster (q : QcowState) (offset : Nat) (mem : Buffer)
    (buf srcLen : Nat) : Option (Option Nat × QcowState) :=
  let clustOff := getClusterOffset q.header offset
  if q.header.clusterSize ≤ clustOff then
    some (none, q)
  else
    let len := min (q.header.clusterSize - clustOff) srcLen
    match getClusterTable lib turns q offset with
    | none => none
    | some (none, q) => some (none, q)
    | some (some (l2t, l2tIdx), q) =>
        let entry := be64 (q.tableOf l2t) (l2tIdx * 8)
        if entry &&& oflagTop = 0 then
          writeNewCluster lib turns inflate q l2t l2tIdx entry offset mem
            buf len
        else
          match pwriteInFull q.file mem buf len
              ((entry &&& maskBelow 62) + clustOff) with
          | (false, file) => some (none, { q with file := file })
          | (true, file) => some (some len, { q with file := file })

/-! ## Sectors -/

/-- The loop of `qcow_write_sector_single`. -/
def writeSectorLoop :
    Nat → QcowState → Nat → Buffer → Nat → Nat → Nat →
      Option (Int × QcowState)
  | 0, _, _, _, _, _, _ => none
  | rest + 1, q, offset, mem, buf, srcLen, nrWritten =>
      if nrWritten < srcLen then
        if q.header.size ≤ offset then
          some (-1, q)
        else
          match qcowWriteCluster lib turns inflate q offset mem buf
              (srcLen - nrWritten) with
          | none => none
          | some (none, q) => some (-1, q)
          | some (some nr, q) =>
              writeSectorLoop rest q ((offset + nr) % 2 ^ 64) mem
                (buf + nr) srcLen ((nrWritten + nr) % 2 ^ 32)
      else
        some (nrWritten, q)

/-- `qcow_write_sector_single`. -/
def qcowWriteSectorSingle (q : QcowState) (sector : Nat) (mem : Buffer)
    (src srcLen : Nat) : Option (Int × QcowState) :=
  writeSectorLoop lib turns inflate (srcLen + 1) q
    (sector <<< sectorShift % 2 ^ 64) mem src srcLen 0

/-- The loop of `qcow_write_sector`. -/
def writeIovecs :
    QcowState → Nat → Buffer → List Iovec → Int → Option (Int × QcowState)
  | q, _, _, [], total => some (total, q)
  | q, sector, mem, iov :: rest, total =>
      match qcowWriteSectorSingle lib turns inflate q sector mem iov.base
          (iov.len % 2 ^ 32) with
      | none => none
      | some (nr, q) =>
          if nr ≠ iov.len then
            some (-1, q)
          else
            writeIovecs q ((sector + iov.len >>> sectorShift) % 2 ^ 64) mem
              rest (total + nr)

/-- `qcow_write_sector`. -/
def qcowWriteSector (q : QcowState) (sector : Nat) (mem : Buffer)
    (iov : List Iovec) : Option (Int × QcowState) :=
  writeIovecs lib turns inflate q sector mem iov 0

end Operations

end Kemu.Disk.Qcow
