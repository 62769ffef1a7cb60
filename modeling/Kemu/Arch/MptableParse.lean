import Kemu.Arch.Mptable
import Kemu.Lib.TaggedRecords
import Mathlib.Data.UInt

/-!
# Reading the MP table back

The sums of the table and its lengths are right as long as it has no more
devices than a slot number of an interrupt source can tell apart.  The source
of a device is made of its subsystem and not of its slot, and behind 255
processors the I/O APIC gets the number of the first one.
-/

namespace Kemu.Arch.MptableParse

open Kemu.Arch.Mptable
open Kemu.Lib.Bytes
open Kemu.Lib.TaggedRecords

/-! ## What is expected -/

/-- The length of an entry by its type. -/
def entrySize (type : UInt8) : Option Nat :=
  if type = mpProcessor then
    some 20
  else if type ≤ mpLintsrc then
    some 8
  else
    none

/-- A field of the header. -/
def fieldAt (table : List UInt8) (offset width : Nat) : Nat :=
  ofLe ((table.drop offset).take width)

/-- The field `length`. -/
def tableLength (table : List UInt8) : Nat :=
  fieldAt table 4 2

/-- The field `oemcount`. -/
def entryCount (table : List UInt8) : Nat :=
  fieldAt table 34 2

/-- The entries behind the header, as far as its length goes. -/
def entriesOf (table : List UInt8) : Option (List (List UInt8)) :=
  split entrySize ((table.take (tableLength table)).drop 44)

/-- The entries of a type. -/
def ofKind (type : UInt8) (entries : List (List UInt8)) :
    List (List UInt8) :=
  entries.filter fun entry => entry.head? = some type

/-- The field `apicid` of a processor or an I/O APIC. -/
def apicId (entry : List UInt8) : UInt8 :=
  entry.getD 1 0

/-- The field `srcbusirq` of an interrupt source. -/
def source (entry : List UInt8) : UInt8 :=
  entry.getD 5 0

/-- The source of an entry has the slot number and the pin of a device. -/
def Encodes (device : PciDevice) (entry : List UInt8) : Prop :=
  1 ≤ device.irqPin.toNat ∧ device.irqPin.toNat ≤ 4 ∧
    (source entry).toNat =
      4 * device.devNum + (device.irqPin.toNat - 1)

/-- The entries that are read back. -/
structure EntriesRight (devices : PciDevices) (table : List UInt8)
    (entries : List (List UInt8)) : Prop where
  length : 44 + entries.flatten.length = tableLength table
  count : entries.length = entryCount table
  chip :
    ∀ chip ∈ ofKind mpIoapic entries,
      ∀ processor ∈ ofKind mpProcessor entries,
        apicId chip ≠ apicId processor
  sources : List.Forall₂ Encodes devices.list (ofKind mpIntsrc entries)
  distinct : ((ofKind mpIntsrc entries).map source).Nodup

/-- The sums are zero, and the entries are those of the processors and devices. -/
structure WellFormed (devices : PciDevices) (table : List UInt8) : Prop where
  floating : (table.drop (table.length - 16)).sum = 0
  fixed : (table.take (tableLength table)).sum = 0
  entries :
    ∃ entries, entriesOf table = some entries ∧
      EntriesRight devices table entries

/--
There are fewer than 255 processors, and each device has one of four pins
and, in the lowest six bits of its subsystem, the number of its slot.
-/
def Sound (nrcpus : UInt32) (devices : PciDevices) : Prop :=
  nrcpus < mptableMaxCpus ∧
    ∀ device ∈ devices.list,
      1 ≤ device.irqPin.toNat ∧ device.irqPin.toNat ≤ 4 ∧
        device.subsysId.toNat % 64 = device.devNum

/-! ## Sums -/

theorem foldl_toUInt8 (bytes : List UInt8) (start : UInt32) :
    (bytes.foldl (fun sum byte => sum + byte.toUInt32) start).toUInt8 =
      start.toUInt8 + bytes.sum := by
  induction bytes generalizing start with
  | nil => simp
  | cons byte rest induction =>
      rw [List.foldl_cons, induction, List.sum_cons, UInt32.toUInt8_add,
        UInt8.toUInt8_toUInt32, add_assoc]

theorem mpfChecksum_toUInt8 (bytes : List UInt8) :
    (mpfChecksum bytes).toUInt8 = bytes.sum := by
  have mask : (0xff : UInt32).toUInt8 = 0xff := rfl
  have all (byte : UInt8) : byte &&& 0xff = byte := by
    exact UInt8.and_neg_one
  rw [mpfChecksum, UInt32.toUInt8_and, mask, all, foldl_toUInt8]
  exact zero_add _

theorem negated_checksum (bytes : List UInt8) :
    negated (mpfChecksum bytes) = -bytes.sum := by
  rw [negated, UInt32.toUInt8_sub, mpfChecksum_toUInt8]
  exact zero_sub _

/-- The checksum is where a zero was. -/
theorem sum_checksum (front back : List UInt8) :
    (front ++ negated (mpfChecksum (front ++ 0 :: back)) :: back).sum =
      0 := by
  rw [negated_checksum, List.sum_append, List.sum_append, List.sum_cons,
    List.sum_cons]
  grind

/-! ## The entries -/

section Entries

variable {type : UInt8} {entries : List (List UInt8)} {Item : Type}
  {bytes : Item → List UInt8}

theorem ofKind_append (front back : List (List UInt8)) :
    ofKind type (front ++ back) = ofKind type front ++ ofKind type back :=
  List.filter_append ..

theorem ofKind_map_self (same : ∀ item, (bytes item).head? = some type)
    (items : List Item) : ofKind type (items.map bytes) = items.map bytes := by
  apply List.filter_eq_self.2
  intro entry member
  obtain ⟨item, -, rfl⟩ := List.mem_map.1 member
  exact decide_eq_true (same item)

theorem ofKind_map_other {other : UInt8} (different : other ≠ type)
    (kind : ∀ item, (bytes item).head? = some other) (items : List Item) :
    ofKind type (items.map bytes) = [] := by
  apply List.filter_eq_nil_iff.2
  intro entry member
  obtain ⟨item, -, rfl⟩ := List.mem_map.1 member
  rw [kind item, decide_eq_true_iff, Option.some.injEq]
  exact different

theorem flatten_map_length {size : Nat}
    (length : ∀ item, (bytes item).length = size) (items : List Item) :
    (items.map bytes).flatten.length = items.length * size := by
  induction items with
  | nil => simp
  | cons item rest induction =>
      rw [List.map_cons, List.flatten_cons, List.length_append, length,
        induction, List.length_cons, Nat.succ_mul, Nat.add_comm]

end Entries

theorem mpcCpu_length (ncpus index : Nat) :
    (mpcCpu ncpus index).bytes.length = 20 := by
  simp [MpcCpu.bytes]

theorem irqSource_length (ioapicid : UInt32) (device : PciDevice) :
    (irqSource ioapicid device).bytes.length = 8 := by
  simp [MpcIntsrc.bytes]

/-- The entries between those of the processors and of the devices. -/
def middle (ncpus : UInt32) : List (List UInt8) :=
  [pciBus.bytes, isaBus.bytes, (mpcIoapic (ncpus + 1)).bytes]

/-- The last entries. -/
def locals : List (List UInt8) :=
  [(localSource mpInt 0).bytes, (localSource mpNmi 1).bytes]

section Table

variable {ncpus : UInt32} {devices : List PciDevice}

theorem mpcEntries_eq :
    mpcEntries ncpus devices =
      (List.range ncpus.toNat).map
          (fun index => (mpcCpu ncpus.toNat index).bytes) ++
        middle ncpus ++
        devices.map (fun device => (irqSource (ncpus + 1) device).bytes) ++
        locals :=
  rfl

theorem mpcEntries_size :
    (mpcEntries ncpus devices).flatten.length =
      20 * ncpus.toNat + 40 + 8 * devices.length := by
  have middleLength : (middle ncpus).flatten.length = 24 := by
    simp [middle, MpcBus.bytes, MpcIoapic.bytes, pciBus, isaBus]
  have localsLength : locals.flatten.length = 16 := by
    decide
  rw [mpcEntries_eq, List.flatten_append, List.flatten_append,
    List.flatten_append, List.length_append, List.length_append,
    List.length_append, flatten_map_length (mpcCpu_length ncpus.toNat),
    flatten_map_length (irqSource_length (ncpus + 1)), middleLength,
    localsLength, List.length_range]
  omega

theorem mpcEntries_count :
    (mpcEntries ncpus devices).length =
      ncpus.toNat + 5 + devices.length := by
  simp only [mpcEntries_eq, middle, locals, List.length_append,
    List.length_map, List.length_range, List.length_cons, List.length_nil]
  omega

theorem mpcEntries_isRecord :
    ∀ entry ∈ mpcEntries ncpus devices, IsRecord entrySize entry := by
  intro entry member
  rw [mpcEntries_eq, List.mem_append, List.mem_append, List.mem_append]
    at member
  rcases member with ((processor | chip) | device) | last
  · obtain ⟨index, -, rfl⟩ := List.mem_map.1 processor
    refine ⟨mpProcessor, rfl, ?_⟩
    rw [mpcCpu_length]
    rfl
  · simp only [middle, List.mem_cons, List.not_mem_nil, or_false] at chip
    rcases chip with rfl | rfl | rfl
    · exact ⟨mpBus, rfl, rfl⟩
    · exact ⟨mpBus, rfl, rfl⟩
    · exact ⟨mpIoapic, rfl, rfl⟩
  · obtain ⟨device, -, rfl⟩ := List.mem_map.1 device
    refine ⟨mpIntsrc, rfl, ?_⟩
    rw [irqSource_length]
    rfl
  · simp only [locals, List.mem_cons, List.not_mem_nil, or_false] at last
    rcases last with rfl | rfl
    · exact ⟨mpLintsrc, rfl, rfl⟩
    · exact ⟨mpLintsrc, rfl, rfl⟩

theorem ofKind_processor :
    ofKind mpProcessor (mpcEntries ncpus devices) =
      (List.range ncpus.toNat).map
        fun index => (mpcCpu ncpus.toNat index).bytes := by
  have other : mpIntsrc ≠ mpProcessor := by decide
  have chip : ofKind mpProcessor (middle ncpus) = [] := rfl
  have last : ofKind mpProcessor locals = [] := rfl
  rw [mpcEntries_eq, ofKind_append, ofKind_append, ofKind_append, chip, last,
    ofKind_map_self (fun _ => rfl), ofKind_map_other other (fun _ => rfl),
    List.append_nil, List.append_nil, List.append_nil]

theorem ofKind_ioapic :
    ofKind mpIoapic (mpcEntries ncpus devices) =
      [(mpcIoapic (ncpus + 1)).bytes] := by
  have first : mpProcessor ≠ mpIoapic := by decide
  have other : mpIntsrc ≠ mpIoapic := by decide
  have chip :
      ofKind mpIoapic (middle ncpus) = [(mpcIoapic (ncpus + 1)).bytes] :=
    rfl
  have last : ofKind mpIoapic locals = [] := rfl
  rw [mpcEntries_eq, ofKind_append, ofKind_append, ofKind_append, chip, last,
    ofKind_map_other first (fun _ => rfl),
    ofKind_map_other other (fun _ => rfl), List.append_nil, List.append_nil,
    List.nil_append]

theorem ofKind_intsrc :
    ofKind mpIntsrc (mpcEntries ncpus devices) =
      devices.map fun device => (irqSource (ncpus + 1) device).bytes := by
  have first : mpProcessor ≠ mpIntsrc := by decide
  have chip : ofKind mpIntsrc (middle ncpus) = [] := rfl
  have last : ofKind mpIntsrc locals = [] := rfl
  rw [mpcEntries_eq, ofKind_append, ofKind_append, ofKind_append, chip, last,
    ofKind_map_other first (fun _ => rfl), ofKind_map_self (fun _ => rfl),
    List.append_nil, List.append_nil, List.nil_append]

end Table

/-! ## Sources -/

theorem source_irqSource (ioapicid : UInt32) (device : PciDevice) :
    source (irqSource ioapicid device).bytes = srcbusirq device :=
  UInt8.toUInt8_toUInt16 _

/-- A pin, and the lowest bits of a subsystem. -/
theorem toNat_srcbusirq {device : PciDevice}
    (first : 1 ≤ device.irqPin.toNat) (last : device.irqPin.toNat ≤ 4) :
    (srcbusirq device).toNat =
      4 * (device.subsysId.toNat % 64) + (device.irqPin.toNat - 1) := by
  have one : (1 : UInt8).toNat = 1 := rfl
  have two : (2 : UInt8).toNat = 2 := rfl
  have bound := UInt8.toNat_lt device.irqPin
  have pin : (device.irqPin - 1).toNat = device.irqPin.toNat - 1 := by
    rw [UInt8.toNat_sub, one]
    omega
  have shifted :
      (device.subsysId.toUInt8 <<< 2).toNat =
        (device.subsysId.toNat % 64) <<< 2 := by
    have power : 2 ^ (2 % 8) = 4 := rfl
    rw [UInt8.toNat_shiftLeft, UInt16.toNat_toUInt8, two,
      Nat.shiftLeft_eq, Nat.shiftLeft_eq, power]
    omega
  rw [srcbusirq, UInt8.toNat_or, shifted, pin,
    ← Nat.shiftLeft_add_eq_or_of_lt (by omega), Nat.shiftLeft_eq]
  omega

/-! ## The table -/

/-- The table, from its header to the floating structure. -/
structure Laid (ncpus : UInt32) (devices : List PciDevice)
    (table : List UInt8) : Prop where
  fixed :
    8 ≤ tableLength table → (table.take (tableLength table)).sum = 0
  floating : (table.drop (table.length - 16)).sum = 0
  length :
    tableLength table =
      (84 + 20 * ncpus.toNat + 8 * devices.length) % 65536
  count :
    entryCount table = (mpcEntries ncpus devices).length % 65536
  entries :
    ∃ behind, table.drop 44 =
      (mpcEntries ncpus devices).flatten ++ behind

/-- The processors after the limit. -/
def limited (nrcpus : UInt32) : UInt32 :=
  if nrcpus > mptableMaxCpus then mptableMaxCpus else nrcpus

theorem mpcTable_length (length : UInt16) (checksum : UInt8)
    (oemcount : UInt16) : (mpcTable length checksum oemcount).length = 44 := by
  simp [mpcTable]

theorem mpfSummed_sum (physptr : UInt32) : (mpfSummed physptr).sum = 0 := by
  have split (checksum : UInt8) :
      mpfIntel physptr checksum =
        ([0x5f, 0x4d, 0x50, 0x5f] ++ toLe 4 physptr.toNat ++ [1, 4]) ++
          checksum :: [0, 0, 0, 0, 0] := by
    rw [mpfIntel, List.append_assoc, List.append_assoc, List.append_assoc]
    rfl
  rw [mpfSummed, split, split]
  exact sum_checksum _ _

theorem mpfSummed_length (physptr : UInt32) :
    (mpfSummed physptr).length = 16 := by
  simp [mpfSummed, mpfIntel]

/-- The header around its checksum. -/
theorem mpcTable_split (length oemcount : UInt16) :
    ∃ front back, front.length = 7 ∧
      ∀ checksum,
        mpcTable length checksum oemcount = front ++ checksum :: back :=
  ⟨[0x50, 0x43, 0x4d, 0x50] ++ toLe 2 length.toNat ++ [4],
    (mpcTable length 0 oemcount).drop 8, rfl, fun _ => rfl⟩

theorem fixed_sum (length oemcount : UInt16) (behind : List UInt8)
    {count : Nat} (long : 8 ≤ count) :
    ((mpcTable length
            (negated
              (mpfChecksum
                ((mpcTable length 0 oemcount ++ behind).take count)))
            oemcount ++
          behind).take count).sum = 0 := by
  obtain ⟨front, back, seven, header⟩ := mpcTable_split length oemcount
  have taken (checksum : UInt8) :
      (mpcTable length checksum oemcount ++ behind).take count =
        front ++ checksum :: (back ++ behind).take (count - 8) := by
    obtain ⟨more, rfl⟩ := Nat.exists_eq_add_of_le' long
    have rest : more + 8 - front.length = more + 1 := by omega
    rw [header, List.append_assoc, List.take_append, rest,
      List.take_of_length_le (by omega), List.cons_append,
      List.take_succ_cons, Nat.add_sub_cancel]
  rw [taken, taken]
  exact sum_checksum _ _

theorem tableLength_mpcTable (length : UInt16) (checksum : UInt8)
    (oemcount : UInt16) (behind : List UInt8) :
    tableLength (mpcTable length checksum oemcount ++ behind) =
      length.toNat := by
  have field :
      ((mpcTable length checksum oemcount ++ behind).drop 4).take 2 =
        toLe 2 length.toNat :=
    rfl
  rw [tableLength, fieldAt, field, ofLe_toLe]
  exact Nat.mod_eq_of_lt (UInt16.toNat_lt length)

theorem entryCount_mpcTable (length : UInt16) (checksum : UInt8)
    (oemcount : UInt16) (behind : List UInt8) :
    entryCount (mpcTable length checksum oemcount ++ behind) =
      oemcount.toNat := by
  have field :
      ((mpcTable length checksum oemcount ++ behind).drop 34).take 2 =
        toLe 2 oemcount.toNat :=
    rfl
  rw [entryCount, fieldAt, field, ofLe_toLe]
  exact Nat.mod_eq_of_lt (UInt16.toNat_lt oemcount)

theorem laid_of_init {nrcpus : UInt32} {devices : PciDevices}
    {biosRomSize : UInt64} {calloc : Bool} {table : List UInt8}
    (init : mptableInit nrcpus devices biosRomSize calloc = .ok table) :
    Laid (limited nrcpus) devices.list table := by
  rw [mptableInit, ← limited] at init
  dsimp only at init
  split at init
  case isTrue => cases init
  case isFalse =>
    split at init
    case isTrue => cases init
    case isFalse =>
      have same := (Except.ok.inj init).symm
      clear init
      subst same
      refine ⟨?_, ?_, ?_, ?_, ?_⟩
      · rw [tableLength_mpcTable]
        exact fixed_sum _ _ _
      · rw [← List.append_assoc, List.length_append, mpfSummed_length,
          Nat.add_sub_cancel, List.drop_left]
        exact mpfSummed_sum _
      · rw [tableLength_mpcTable, UInt16.toNat_ofNat', mpcEntries_size]
        congr 1
        omega
      · rw [entryCount_mpcTable, UInt16.toNat_ofNat']
      · exact
          ⟨_,
            (List.drop_left' (mpcTable_length ..)).trans
              (List.append_assoc ..)⟩

/-- A table that is not too long for its header. -/
theorem Laid.entriesOf {ncpus : UInt32} {devices : List PciDevice}
    {table : List UInt8} (laid : Laid ncpus devices table)
    (short : 84 + 20 * ncpus.toNat + 8 * devices.length < 65536) :
    MptableParse.entriesOf table = some (mpcEntries ncpus devices) := by
  obtain ⟨behind, entries⟩ := laid.entries
  have size : tableLength table - 44 =
      (mpcEntries ncpus devices).flatten.length := by
    rw [laid.length, Nat.mod_eq_of_lt short, mpcEntries_size]
    omega
  rw [MptableParse.entriesOf, List.drop_take, entries, size,
    List.take_left]
  exact split_flatten mpcEntries_isRecord

/-! ## Which tables are right -/

section Devices

variable {nrcpus : UInt32} {devices : PciDevices} {table : List UInt8}

/-- Few devices have slot numbers of six bits. -/
theorem few_devices (small : ∀ device ∈ devices.list, device.devNum < 64) :
    devices.list.length ≤ 64 := by
  have different : (devices.list.map PciDevice.devNum).Nodup := by
    rw [List.Nodup, List.pairwise_map]
    exact devices.ascending.imp Nat.ne_of_lt
  have within :
      devices.list.map PciDevice.devNum ⊆ List.range 64 := by
    intro number member
    obtain ⟨device, among, rfl⟩ := List.mem_map.1 member
    exact List.mem_range.2 (small device among)
  have bound := (different.subperm within).length_le
  rwa [List.length_map, List.length_range] at bound

theorem limited_le : (limited nrcpus).toNat ≤ 255 := by
  have most : mptableMaxCpus.toNat = 255 := rfl
  rw [limited]
  split
  case isTrue => exact Nat.le_of_eq most
  case isFalse fits =>
    rw [gt_iff_lt, UInt32.lt_iff_toNat_lt, most] at fits
    omega

/-- The table of few devices is read back. -/
theorem Laid.read_back (laid : Laid (limited nrcpus) devices.list table)
    (small : ∀ device ∈ devices.list, device.devNum < 64) :
    MptableParse.entriesOf table =
        some (mpcEntries (limited nrcpus) devices.list) ∧
      44 + (mpcEntries (limited nrcpus) devices.list).flatten.length =
        tableLength table ∧
      (mpcEntries (limited nrcpus) devices.list).length =
        entryCount table := by
  have few := few_devices small
  have most := @limited_le nrcpus
  refine ⟨laid.entriesOf (by omega), ?_, ?_⟩
  · rw [laid.length, mpcEntries_size]
    omega
  · rw [laid.count, mpcEntries_count]
    omega

theorem limited_eq_of_lt (less : nrcpus < mptableMaxCpus) :
    limited nrcpus = nrcpus :=
  if_neg (UInt32.lt_asymm less)

theorem limited_eq_of_not_lt (more : ¬ nrcpus < mptableMaxCpus) :
    limited nrcpus = mptableMaxCpus := by
  rw [limited]
  split
  · rfl
  case isFalse fits =>
    exact UInt32.le_antisymm (UInt32.not_lt.1 fits) (UInt32.not_lt.1 more)

/-- The number behind those of fewer than 255 processors is not one of them. -/
theorem chip_differs (less : nrcpus < mptableMaxCpus) {index : Nat}
    (processor : index < nrcpus.toNat) :
    (nrcpus + 1).toUInt8 ≠ UInt8.ofNat index := by
  have most : mptableMaxCpus.toNat = 255 := rfl
  have one : (1 : UInt32).toNat = 1 := rfl
  rw [UInt32.lt_iff_toNat_lt, most] at less
  rw [ne_eq, ← UInt8.toNat_inj, UInt32.toNat_toUInt8, UInt32.toNat_add, one,
    UInt8.toNat_ofNat']
  omega

/-- The sources ascend with the slots. -/
theorem Sound.distinct (sound : Sound nrcpus devices) :
    (devices.list.map srcbusirq).Nodup := by
  rw [List.Nodup, List.pairwise_map]
  refine devices.ascending.imp_of_mem ?_
  intro first second among also less same
  obtain ⟨firstPin, firstMost, firstSlot⟩ := sound.2 first among
  obtain ⟨secondPin, secondMost, secondSlot⟩ := sound.2 second also
  have equal := congrArg UInt8.toNat same
  rw [toNat_srcbusirq firstPin firstMost,
    toNat_srcbusirq secondPin secondMost, firstSlot, secondSlot] at equal
  omega

theorem map_source (ioapicid : UInt32) (list : List PciDevice) :
    (list.map fun device => (irqSource ioapicid device).bytes).map source =
      list.map srcbusirq := by
  rw [List.map_map]
  exact List.map_congr_left fun device _ => source_irqSource ioapicid device

/-- The source of a device. -/
theorem encodes_iff {device : PciDevice} (ioapicid : UInt32) :
    Encodes device (irqSource ioapicid device).bytes ↔
      1 ≤ device.irqPin.toNat ∧ device.irqPin.toNat ≤ 4 ∧
        device.subsysId.toNat % 64 = device.devNum := by
  rw [Encodes, source_irqSource]
  refine and_congr_right fun first => and_congr_right fun last => ?_
  rw [toNat_srcbusirq first last]
  omega

theorem forall₂_encodes_iff (ioapicid : UInt32) (list : List PciDevice) :
    List.Forall₂ Encodes list
        (list.map fun device => (irqSource ioapicid device).bytes) ↔
      ∀ device ∈ list,
        1 ≤ device.irqPin.toNat ∧ device.irqPin.toNat ≤ 4 ∧
          device.subsysId.toNat % 64 = device.devNum := by
  rw [List.forall₂_map_right_iff, List.forall₂_same]
  exact forall₂_congr fun device _ => encodes_iff ioapicid

theorem Sound.wellFormed (sound : Sound nrcpus devices)
    (laid : Laid (limited nrcpus) devices.list table) :
    WellFormed devices table := by
  have small : ∀ device ∈ devices.list, device.devNum < 64 := by
    intro device among
    rw [← (sound.2 device among).2.2]
    exact Nat.mod_lt _ (by decide)
  obtain ⟨entries, length, count⟩ := laid.read_back small
  refine ⟨laid.floating, laid.fixed (by omega), _, entries, ?_⟩
  rw [limited_eq_of_lt sound.1] at length count ⊢
  refine ⟨length, count, ?_, ?_, ?_⟩
  · rw [ofKind_ioapic, ofKind_processor]
    intro chip only processor among
    obtain ⟨index, inside, rfl⟩ := List.mem_map.1 among
    rw [List.mem_singleton.1 only]
    exact chip_differs sound.1 (List.mem_range.1 inside)
  · rw [ofKind_intsrc, forall₂_encodes_iff]
    exact sound.2
  · rw [ofKind_intsrc, map_source]
    exact sound.distinct

/-- Slots are small if sources have their numbers. -/
theorem small_of_encodes {list : List PciDevice}
    {entries : List (List UInt8)}
    (sources : List.Forall₂ Encodes list entries) :
    ∀ device ∈ list, device.devNum < 64 := by
  induction sources with
  | nil => exact nofun
  | @cons device entry _ _ encodes _ induction =>
      refine List.forall_mem_cons.2 ⟨?_, induction⟩
      have bound := UInt8.toNat_lt (source entry)
      have value := encodes.2.2
      omega

theorem WellFormed.sound (wellFormed : WellFormed devices table)
    (laid : Laid (limited nrcpus) devices.list table) :
    Sound nrcpus devices := by
  obtain ⟨entries, read, right⟩ := wellFormed.entries
  have actual := (laid.read_back (small_of_encodes right.sources)).1
  obtain rfl := Option.some.inj (read.symm.trans actual)
  have sources := right.sources
  have chip := right.chip
  rw [ofKind_intsrc, forall₂_encodes_iff] at sources
  refine ⟨?_, sources⟩
  by_contra more
  rw [limited_eq_of_not_lt more, ofKind_ioapic, ofKind_processor] at chip
  have first :
      (mpcCpu mptableMaxCpus.toNat 0).bytes ∈
        (List.range mptableMaxCpus.toNat).map
          fun index => (mpcCpu mptableMaxCpus.toNat index).bytes :=
    List.mem_map_of_mem (List.mem_range.2 (by decide))
  exact chip _ (List.mem_singleton_self _) _ first rfl

end Devices

/-! ## The result -/

/--
For every number of processors and all registered devices whose table is not
too big, the table is well formed exactly when there are fewer than 255
processors and the subsystem of each device has the number of its slot.
-/
theorem mptable_wellFormed_iff (nrcpus : UInt32) (devices : PciDevices)
    (biosRomSize : UInt64) (calloc : Bool) (table : List UInt8)
    (init : mptableInit nrcpus devices biosRomSize calloc = .ok table) :
    WellFormed devices table ↔ Sound nrcpus devices :=
  ⟨fun wellFormed => wellFormed.sound (laid_of_init init),
    fun sound => sound.wellFormed (laid_of_init init)⟩

/-- Two disks in the first slots. -/
def twoDisks : PciDevices where
  list := [⟨0, 2, 5, 1⟩, ⟨1, 2, 6, 1⟩]
  ascending := by decide

/-- The table for one processor and a BIOS of 8 KiB. -/
def diskTable : List UInt8 :=
  (mptableInit 1 twoDisks 0x2000 true).toOption.getD []

theorem mptableInit_twoDisks :
    mptableInit 1 twoDisks 0x2000 true = .ok diskTable := by
  have some :
      (mptableInit 1 twoDisks 0x2000 true).toOption.isSome = true := by
    decide +kernel
  rw [diskTable]
  cases outcome : mptableInit 1 twoDisks 0x2000 true with
  | ok table => rfl
  | error error =>
      rw [outcome] at some
      cases some

/-- The table of one CPU and two disks. -/
theorem mptable_wellFormed_on_disks :
    WellFormed twoDisks diskTable ↔ Sound 1 twoDisks :=
  mptable_wellFormed_iff 1 twoDisks 0x2000 true diskTable
    mptableInit_twoDisks

/-- Both disks have the source of the third slot. -/
theorem disks_share_source :
    twoDisks.list.map srcbusirq = [8, 8] ∧
      ¬ ∀ (nrcpus : UInt32) (devices : PciDevices) (biosRomSize : UInt64)
          (calloc : Bool) (table : List UInt8),
          mptableInit nrcpus devices biosRomSize calloc = .ok table →
            WellFormed devices table := by
  refine ⟨by decide, fun always => ?_⟩
  have wellFormed := always 1 twoDisks 0x2000 true _ mptableInit_twoDisks
  have sound := wellFormed.sound (laid_of_init mptableInit_twoDisks)
  exact absurd (sound.2 _ List.mem_cons_self).2.2 (by decide)

end Kemu.Arch.MptableParse
