import Kemu.Lib.LruCache
import Kemu.Util.IoVector
import Kemu.Util.ReadWrite

/-!
# QCOW images: the state and the read path

`struct qcow` as the operations of `disk/qcow.c` see it, and the functions
behind `qcow_read_sector`.  Tables are kept as the bytes they are on disk and
decoded at each access, as the source does with `be64_to_cpu`.

The state holds the host file, and the file holds the host's answers to the
calls to come (see `Kemu.Util.ReadWrite`); allocations are such calls too.
Fixed-width arithmetic is written out where a value can leave its type.
-/

namespace Kemu.Disk.Qcow

open Kemu.Lib.LruCache
open Kemu.Lib.SearchTree
open Kemu.Util.IoVector
open Kemu.Util.ReadWrite

/-! ## Numbers on disk -/

/-- A big-endian number of `width` bytes. -/
def beNumber (width : Nat) (buffer : Buffer) (start : Nat) : Nat :=
  (List.range width).foldl
    (fun value index => value * 256 + (buffer (start + index)).toNat) 0

/-- `be64_to_cpu` of the word at a position. -/
def be64 (buffer : Buffer) (start : Nat) : Nat :=
  beNumber 8 buffer start

/-- `be16_to_cpu` of the word at a position. -/
def be16 (buffer : Buffer) (start : Nat) : Nat :=
  beNumber 2 buffer start

/-- Store a number of `width` bytes, the most significant first. -/
def putNumber (width : Nat) (buffer : Buffer) (start value : Nat) :
    Buffer :=
  store buffer start width
    (fun index => UInt8.ofNat (value >>> (8 * (width - 1 - index)))) 0

/-- A conversion to `int`. -/
def asInt (value : Nat) : Int :=
  Int.bmod value (2 ^ 32)

/-- An `int` that is passed as an `off_t` and read as unsigned. -/
def asOffT (value : Int) : Nat :=
  (value % 2 ^ 64).toNat

theorem asInt_of_lt {value : Nat} (small : value < 2 ^ 31) :
    asInt value = value :=
  Int.bmod_eq_of_le (by omega) (by omega)

theorem asInt_bounds (value : Nat) :
    -2 ^ 31 ≤ asInt value ∧ asInt value < 2 ^ 31 :=
  ⟨Int.le_bmod (by decide), Int.bmod_lt (by decide)⟩

/-- A value survives the conversion to `int` exactly below 2 GiB. -/
theorem asOffT_asInt_eq_iff {value : Nat} (small : value < 2 ^ 63) :
    asOffT (asInt value) = value ↔ value < 2 ^ 31 := by
  constructor
  · intro same
    have bounds := asInt_bounds value
    unfold asOffT at same
    omega
  · intro low
    rw [asInt_of_lt low]
    unfold asOffT
    omega

/-! ## State -/

/-- `q->version`. -/
inductive Version where
  | qcow1
  | qcow2
deriving DecidableEq, Repr

/-- `struct qcow_header`. -/
structure QcowHeader where
  size : Nat
  l1TableOffset : Nat
  l1Size : Nat
  clusterBits : Nat
  l2Bits : Nat
  refcountTableOffset : Nat
  refcountTableSize : Nat
deriving DecidableEq, Repr

namespace QcowHeader

/-- `q->cluster_size`. -/
def clusterSize (header : QcowHeader) : Nat :=
  1 <<< header.clusterBits

/-- The number of entries of an L2 table. -/
def l2Size (header : QcowHeader) : Nat :=
  1 <<< header.l2Bits

end QcowHeader

/-- `struct qcow_l2_table`, without its links. -/
structure QcowL2Table where
  dirty : Bool
  table : Buffer

/-- `struct qcow_refcount_block`, without its links. -/
structure QcowRefcountBlock where
  size : Nat
  dirty : Bool
  entries : Buffer

/--
`struct qcow`.  `fresh` is what `malloc` leaves in new memory.  `strayed`
says that memory was used outside its bounds or after it was freed; from
then on the memory of the process is not known.
-/
structure QcowState where
  version : Version
  header : QcowHeader
  l1Table : Buffer
  l2Cache : Cache Nat QcowL2Table
  rfTable : Buffer
  rfCache : Cache Nat QcowRefcountBlock
  freeClustIdx : Nat
  clusterData : Buffer
  copyBuff : Buffer
  fresh : Buffer
  file : HostFile
  strayed : Bool

/-- `MAX_CACHE_NODES`. -/
def maxCacheNodes : Nat := 32

/-- `SECTOR_SHIFT`. -/
def sectorShift : Nat := 9

/-- `QCOW2_OFLAG_COPIED`, and `QCOW1_OFLAG_COMPRESSED`. -/
def oflagTop : Nat := 2 ^ 63

/-- `QCOW2_OFLAG_COMPRESSED`. -/
def qcow2OflagCompressed : Nat := 2 ^ 62

/-- `QCOW2_OFFSET_MASK`, and the complement of `QCOW2_OFLAG_COPIED`. -/
def maskBelow (bits : Nat) : Nat := 2 ^ bits - 1

/-! ## Where an offset leads -/

/-- `get_l1_index`. -/
def getL1Index (header : QcowHeader) (offset : Nat) : Nat :=
  offset >>> (header.l2Bits + header.clusterBits)

/-- `get_l2_index`. -/
def getL2Index (header : QcowHeader) (offset : Nat) : Nat :=
  (offset >>> header.clusterBits) &&& (1 <<< header.l2Bits - 1)

/-- `get_cluster_offset`. -/
def getClusterOffset (header : QcowHeader) (offset : Nat) : Nat :=
  offset &&& (1 <<< header.clusterBits - 1)

/-! ## L2 tables -/

section Operations

variable (lib : Rebalancer (Node Nat))

/-- `new_cache_table` and `new_refcount_block`: whether there is memory. -/
def QcowState.callocs (q : QcowState) : Bool × QcowState :=
  (q.file.answer != 0, { q with file := q.file.skip 1 })

/-- `l2_table_search`. -/
def l2TableSearch (q : QcowState) (offset : Nat) :
    Option (Node Nat) × QcowState :=
  match q.l2Cache.lookup offset with
  | none => (none, q)
  | some l2t => (some l2t, { q with l2Cache := q.l2Cache.touch l2t })

/-- `qcow_read_l2_table`; `none` for a null pointer. -/
def qcowReadL2Table (q : QcowState) (offset : Nat) :
    Option (Node Nat) × QcowState :=
  match l2TableSearch q offset with
  | (some l2t, q) => (some l2t, q)
  | (none, q) =>
      match q.callocs with
      | (false, q) => (none, q)
      | (true, q) =>
          match preadInFull q.file (fun _ => 0) 0
              (q.header.l2Size * 8) offset with
          | (none, _, file) => (none, { q with file := file })
          | (some _, table, file) =>
              let (l2t, cache) :=
                q.l2Cache.add lib maxCacheNodes offset ⟨false, table⟩
              (some l2t, { q with l2Cache := cache, file := file })

/-- `l2t->table`. -/
def QcowState.tableOf (q : QcowState) (l2t : Node Nat) : Buffer :=
  ((q.l2Cache.heap l2t.obj).map QcowL2Table.table).getD fun _ => 0

/-! ## Clusters -/

/-- `inflate` over a buffer: the input, its length and the output's. -/
abbrev Inflate := Buffer → Nat → Nat → Option Buffer

/-- How the two versions of the format differ for the read path. -/
structure ClusterFormat where
  /-- The offset of the L2 table in an L1 entry. -/
  l2tOffset : Nat → Nat
  /-- The L2 entry is for a compressed cluster. -/
  compressed : Nat → Bool
  /-- The offset of the cluster in an L2 entry. -/
  clustStart : Nat → Nat
  /--
  For a compressed cluster: where to read, how many bytes, how many of them
  to skip and the length of the rest.
  -/
  extent : QcowHeader → Nat → Nat × Nat × Nat × Nat

/-- The entries of version 1. -/
def qcow1Format : ClusterFormat where
  l2tOffset entry := entry
  compressed entry := entry &&& oflagTop != 0
  clustStart entry := entry
  extent header entry :=
    let coffset := asInt (entry &&& maskBelow (63 - header.clusterBits))
    let csize :=
      (entry >>> (63 - header.clusterBits)) &&& (header.clusterSize - 1)
    (asOffT coffset, csize, 0, csize)

/-- The entries of version 2. -/
def qcow2Format : ClusterFormat where
  l2tOffset entry := entry &&& maskBelow 63
  compressed entry := entry &&& qcow2OflagCompressed != 0
  clustStart entry := entry &&& maskBelow 62
  extent header entry :=
    let csizeShift := 62 - (header.clusterBits - 8)
    let coffset := asInt (entry &&& maskBelow csizeShift)
    let nbCsectors :=
      ((entry >>> csizeShift) &&& maskBelow (header.clusterBits - 8)) + 1
    let sectorOffset := (coffset % 512).toNat
    (asOffT (coffset - coffset % 512), nbCsectors * 512, sectorOffset,
      nbCsectors * 512 - sectorOffset)

/-- The format of a version. -/
def Version.format : Version → ClusterFormat
  | .qcow1 => qcow1Format
  | .qcow2 => qcow2Format

variable (inflate : Inflate)

/--
The part of a read that is for a compressed cluster.  `q->cluster_data` has
room for one cluster.
-/
def readCompressed (format : ClusterFormat) (q : QcowState)
    (entry clustOffset length : Nat) (mem : Buffer) (dst : Nat) :
    Option Nat × Buffer × QcowState :=
  let (offset, count, skip, csize) := format.extent q.header entry
  match preadInFull q.file q.clusterData 0 count offset with
  | (none, _, file) => (none, mem, { q with file := file })
  | (some total, data, file) =>
      let q :=
        { q with
          clusterData := data
          file := file
          strayed := q.strayed || decide (q.header.clusterSize < total) }
      match inflate (fun index => data (skip + index)) csize
          q.header.clusterSize with
      | none => (none, mem, q)
      | some cluster =>
          (some length, store mem dst length cluster clustOffset, q)

/--
The common text of `qcow1_read_cluster` and `qcow2_read_cluster`: the result
is the number of bytes, `none` for -1, with the memory written to.
-/
def readCluster (format : ClusterFormat) (q : QcowState) (offset : Nat)
    (mem : Buffer) (dst dstLen : Nat) : Option Nat × Buffer × QcowState :=
  let l1Idx := getL1Index q.header offset
  let clustOffset := getClusterOffset q.header offset
  if q.header.l1Size ≤ l1Idx then
    (none, mem, q)
  else if q.header.clusterSize ≤ clustOffset then
    (none, mem, q)
  else
    let length := min (q.header.clusterSize - clustOffset) dstLen
    let zeroed := store mem dst length (fun _ => 0) 0
    let l2tOffset := format.l2tOffset (be64 q.l1Table (l1Idx * 8))
    if l2tOffset = 0 then
      (some length, zeroed, q)
    else
      match qcowReadL2Table lib q l2tOffset with
      | (none, q) => (none, mem, q)
      | (some l2t, q) =>
          let l2Idx := getL2Index q.header offset
          if q.header.l2Size ≤ l2Idx then
            (none, mem, q)
          else
            let entry := be64 (q.tableOf l2t) (l2Idx * 8)
            if format.compressed entry then
              readCompressed inflate format q entry clustOffset length mem
                dst
            else if format.clustStart entry = 0 then
              (some length, zeroed, q)
            else
              match preadInFull q.file mem dst length
                  (format.clustStart entry + clustOffset) with
              | (none, mem, file) => (none, mem, { q with file := file })
              | (some _, mem, file) =>
                  (some length, mem, { q with file := file })

/-- `qcow1_read_cluster`. -/
def qcow1ReadCluster := readCluster lib inflate qcow1Format

/-- `qcow2_read_cluster`. -/
def qcow2ReadCluster := readCluster lib inflate qcow2Format

/-- The function for the version of the image. -/
def readVersionCluster (q : QcowState) :
    Nat → Buffer → Nat → Nat → Option Nat × Buffer × QcowState :=
  match q.version with
  | .qcow1 => qcow1ReadCluster lib inflate q
  | .qcow2 => qcow2ReadCluster lib inflate q

/-! ## Sectors -/

/--
The loop of `qcow_read_sector_single`; `none` when it takes more turns than
it is given.  The count a turn returns is kept in 32 bits without a sign, in
which an error is a large count.
-/
def readSectorLoop :
    Nat → QcowState → Nat → Buffer → Nat → Nat → Nat →
      Option (Int × Buffer × QcowState)
  | 0, _, _, _, _, _, _ => none
  | turns + 1, q, sector, mem, buf, dstLen, nrRead =>
      if nrRead < dstLen then
        let offset := sector <<< sectorShift % 2 ^ 64
        if q.header.size ≤ offset then
          some (-1, mem, q)
        else
          let (result, mem, q) :=
            readVersionCluster lib inflate q offset mem buf
              (dstLen - nrRead)
          let nr := (result.getD (2 ^ 64 - 1)) % 2 ^ 32
          if nr = 0 then
            some (-1, mem, q)
          else
            readSectorLoop turns q
              ((sector + nr >>> sectorShift) % 2 ^ 64)
              mem (buf + nr) dstLen ((nrRead + nr) % 2 ^ 32)
      else
        some (dstLen, mem, q)

/-- `qcow_read_sector_single`. -/
def qcowReadSectorSingle (q : QcowState) (sector : Nat) (mem : Buffer)
    (dst dstLen : Nat) : Option (Int × Buffer × QcowState) :=
  readSectorLoop lib inflate (dstLen + 1) q sector mem dst dstLen 0

/-- The loop of `qcow_read_sector`. -/
def readIovecs :
    QcowState → Nat → Buffer → List Iovec → Int →
      Option (Int × Buffer × QcowState)
  | q, _, mem, [], total => some (total, mem, q)
  | q, sector, mem, iov :: rest, total =>
      match qcowReadSectorSingle lib inflate q sector mem iov.base
          (iov.len % 2 ^ 32) with
      | none => none
      | some (nr, mem, q) =>
          if nr ≠ iov.len then
            some (-1, mem, q)
          else
            readIovecs q ((sector + iov.len >>> sectorShift) % 2 ^ 64) mem
              rest (total + nr)

/-- `qcow_read_sector`. -/
def qcowReadSector (q : QcowState) (sector : Nat) (mem : Buffer)
    (iov : List Iovec) : Option (Int × Buffer × QcowState) :=
  readIovecs lib inflate q sector mem iov 0

end Operations

/-! ## Opening an image -/

/-- The number of entries of the refcount table, in 32 bits. -/
def QcowHeader.rfSize (header : QcowHeader) : Nat :=
  header.refcountTableSize * header.clusterSize / 8 % 2 ^ 32

/--
A table read whole into fresh memory: `qcow_read_l1_table` and
`qcow_read_refcount_table`.
-/
def readTable (file : HostFile) (entries offset : Nat) :
    Option (Buffer × HostFile) :=
  if file.answer = 0 then
    none
  else
    match preadInFull (file.skip 1) (fun _ => 0) 0 (entries * 8) offset with
    | (none, _, _) => none
    | (some _, table, file) => some (table, file)

/-- The rest of the probe functions, once the header is known. -/
def qcowProbe (version : Version) (header : QcowHeader) (fresh : Buffer)
    (file : HostFile) : Option QcowState :=
  match readTable file header.l1Size header.l1TableOffset with
  | none => none
  | some (l1Table, file) =>
      let q : QcowState :=
        { version := version
          header := header
          l1Table := l1Table
          l2Cache := Cache.empty
          rfTable := fun _ => 0
          rfCache := Cache.empty
          freeClustIdx := 0
          clusterData := fresh
          copyBuff := fresh
          fresh := fresh
          file := file
          strayed := false }
      match version with
      | .qcow1 => some q
      | .qcow2 =>
          match readTable file header.rfSize header.refcountTableOffset with
          | none => none
          | some (rfTable, file) =>
              some { q with rfTable := rfTable, file := file }

end Kemu.Disk.Qcow
