import Kemu.Lib.Flags
import Kemu.Lib.LinkedList
import Kemu.Vfio.Msi
import Mathlib.Data.List.Pairwise

/-!
# The capabilities a device is passed through with

`vfio_pci_parse_caps` goes through the capabilities of the physical device
and puts those it can emulate into a list of their own, at the same places of
a second header; then that header replaces the area of the capabilities.
The head of the second list is in the first header all the time.
-/

namespace Kemu.Vfio.Caps

open Kemu.Lib.Bytes
open Kemu.Lib.Flags
open Kemu.Lib.LinkedList
open Kemu.Vfio.Msi

/-! ## The code -/

/-- `PCI_CAP_ID_MSI`. -/
def pciCapIdMsi : UInt8 := 0x05

/-- `PCI_CAP_ID_EXP`. -/
def pciCapIdExp : UInt8 := 0x10

/-- `PCI_CAP_ID_MSIX`. -/
def pciCapIdMsix : UInt8 := 0x11

/-- `PCI_CAP_MSIX_SIZEOF`. -/
def pciCapMsixSizeof : Nat := 12

/-- `PCI_CAP_EXP_RC_ENDPOINT_SIZEOF_V1`. -/
def pciCapExpRcEndpointSizeofV1 : Nat := 12

/-- `PCI_STATUS_CAP_LIST`, a bit of the lower byte of the status. -/
def pciStatusCapList : UInt8 := 0x10

/-- The place of the lower byte of `status`. -/
def statusPlace : Nat := 6

/-- The place of `capabilities`. -/
def capabilitiesPlace : Nat := 0x34

/-- `PCI_STD_HEADER_SIZEOF`. -/
def pciStdHeaderSizeof : Nat := 64

/-- `PCI_DEV_CFG_SIZE_LEGACY`. -/
def pciDevCfgSizeLegacy : Nat := 256

/-- `pdev->hdr`, `msix.pos`, `msi.pos` and two bits of `irq_modes`. -/
structure VfioPciDevice where
  hdr : Nat → UInt8
  msixPos : Nat
  msiPos : Nat
  modeMsix : Bool
  modeMsi : Bool

/-- `vfio_pci_msi_cap_size`. -/
def vfioPciMsiCapSize (hdr : Nat → UInt8) (pos : Nat) : Nat :=
  let ctrl := UInt16.ofNat (ofLe (peek hdr (pos + 2) 2))
  10 + (if ctrl &&& pciMsiFlags64bit ≠ 0 then 4 else 0) +
    (if ctrl &&& pciMsiFlagsMaskbit ≠ 0 then 10 else 0)

/-- `vfio_pci_cap_size`. -/
def vfioPciCapSize (hdr : Nat → UInt8) (pos : Nat) : Nat :=
  if hdr pos = pciCapIdMsix then
    pciCapMsixSizeof
  else if hdr pos = pciCapIdMsi then
    vfioPciMsiCapSize hdr pos
  else if hdr pos = pciCapIdExp then
    pciCapExpRcEndpointSizeofV1
  else
    0

/-- The place in `next` of the capability at a place. -/
def nextCap (hdr : Nat → UInt8) (pos : Nat) : Nat :=
  (hdr (pos + 1)).toNat

/-- The two headers. -/
structure Headers where
  hdr : Nat → UInt8
  virtHdr : Nat → UInt8

/-- `vfio_pci_add_cap`; `turns` bounds the search for the last one. -/
def vfioPciAddCap (turns : Nat) (headers : Headers) (pos : Nat) :
    Option Headers :=
  let hdr := Function.update headers.hdr (pos + 1) 0
  let copied (virtHdr : Nat → UInt8) :=
    poke virtHdr pos (peek hdr pos (vfioPciCapSize hdr pos))
  if hdr capabilitiesPlace = 0 then
    let hdr := Function.update hdr capabilitiesPlace (.ofNat pos)
    let status := hdr statusPlace ||| pciStatusCapList
    some
      ⟨Function.update hdr statusPlace status, copied headers.virtHdr⟩
  else
    (lastPlace (nextCap headers.virtHdr) 0 turns
        (hdr capabilitiesPlace).toNat).map fun last =>
      ⟨hdr,
        copied (Function.update headers.virtHdr (last + 1) (.ofNat pos))⟩

section Code

variable (archHasPciExp : Bool) (turns : Nat)

/-- The loop of `vfio_pci_parse_caps`, for so many capabilities. -/
def parseLoop : Nat → VfioPciDevice → (Nat → UInt8) → Nat →
    Option (VfioPciDevice × (Nat → UInt8))
  | 0, _, _, _ => none
  | fuel + 1, pdev, virtHdr, pos =>
      if pos = 0 then
        some (pdev, virtHdr)
      else
        let next := nextCap pdev.hdr pos
        if pdev.hdr pos = pciCapIdMsix then
          (vfioPciAddCap turns ⟨pdev.hdr, virtHdr⟩ pos).bind
            fun headers =>
              parseLoop fuel
                { pdev with
                  hdr := headers.hdr, msixPos := pos, modeMsix := true }
                headers.virtHdr next
        else if pdev.hdr pos = pciCapIdMsi then
          (vfioPciAddCap turns ⟨pdev.hdr, virtHdr⟩ pos).bind
            fun headers =>
              parseLoop fuel
                { pdev with
                  hdr := headers.hdr, msiPos := pos, modeMsi := true }
                headers.virtHdr next
        else if pdev.hdr pos = pciCapIdExp ∧ archHasPciExp then
          (vfioPciAddCap turns ⟨pdev.hdr, virtHdr⟩ pos).bind
            fun headers =>
              parseLoop fuel { pdev with hdr := headers.hdr }
                headers.virtHdr next
        else
          parseLoop fuel pdev virtHdr next

/-- `vfio_pci_parse_caps`; `none` when the turns do not suffice. -/
def vfioPciParseCaps (pdev : VfioPciDevice) : Option VfioPciDevice :=
  if pdev.hdr statusPlace &&& pciStatusCapList = 0 then
    some pdev
  else
    let pos := (pdev.hdr capabilitiesPlace &&& ~~~3).toNat
    let status := pdev.hdr statusPlace &&& ~~~pciStatusCapList
    let hdr := Function.update pdev.hdr statusPlace status
    let hdr := Function.update hdr capabilitiesPlace 0
    (parseLoop archHasPciExp turns turns { pdev with hdr := hdr }
        (fun _ => 0) pos).map fun (pdev, virtHdr) =>
      -- wipe remaining capabilities
      { pdev with
        hdr :=
          poke pdev.hdr pciStdHeaderSizeof
            (peek virtHdr pciStdHeaderSizeof
              (pciDevCfgSizeLegacy - pciStdHeaderSizeof)) }

end Code

/-! ## What is expected -/

section Spec

variable (archHasPciExp : Bool) (hdr : Nat → UInt8)

/-- The capability is one that is emulated. -/
def Emulated (pos : Nat) : Prop :=
  hdr pos = pciCapIdMsix ∨ hdr pos = pciCapIdMsi ∨
    hdr pos = pciCapIdExp ∧ archHasPciExp

instance (pos : Nat) : Decidable (Emulated archHasPciExp hdr pos) :=
  inferInstanceAs (Decidable (_ ∨ _ ∨ _))

/-- The capabilities that are emulated, in order. -/
def emulated (caps : List Nat) : List Nat :=
  caps.filter fun pos => Emulated archHasPciExp hdr pos

/-- The bytes a capability has at least. -/
def extent (pos : Nat) : Nat :=
  if Emulated archHasPciExp hdr pos then vfioPciCapSize hdr pos else 2

/-- Two places with so many bytes at each have none in common. -/
def Apart (size : Nat → Nat) (pos other : Nat) : Prop :=
  pos + size pos ≤ other ∨ other + size other ≤ pos

/-- A place is one of the bytes of a capability. -/
def Covers (pos place : Nat) : Prop :=
  pos ≤ place ∧ place < pos + vfioPciCapSize hdr pos

/--
A header with a list of capabilities, each of them in the area behind the
standard header and at a multiple of four, and apart from each other.
-/
structure WellFormedCaps (caps : List Nat) : Prop where
  hasCaps : hdr statusPlace &&& pciStatusCapList ≠ 0
  listed : Listed (nextCap hdr) 0 (hdr capabilitiesPlace).toNat caps
  aligned : ∀ pos ∈ caps, pos % 4 = 0
  inside :
    ∀ pos ∈ caps,
      pciStdHeaderSizeof ≤ pos ∧
        pos + extent archHasPciExp hdr pos ≤ pciDevCfgSizeLegacy
  apart : caps.Pairwise (Apart (extent archHasPciExp hdr))

/-- A header with the emulated ones of these capabilities only. -/
structure FilteredCaps (caps : List Nat) (after : Nat → UInt8) : Prop where
  listed :
    Listed (nextCap after) 0 (after capabilitiesPlace).toNat
      (emulated archHasPciExp hdr caps)
  hasCaps :
    after statusPlace &&& pciStatusCapList ≠ 0 ↔
      emulated archHasPciExp hdr caps ≠ []
  copied :
    ∀ pos ∈ emulated archHasPciExp hdr caps,
      ∀ index < vfioPciCapSize hdr pos,
        index ≠ 1 → after (pos + index) = hdr (pos + index)
  blank :
    ∀ place, pciStdHeaderSizeof ≤ place → place < pciDevCfgSizeLegacy →
      (∀ pos ∈ emulated archHasPciExp hdr caps, ¬ Covers hdr pos place) →
        after place = 0
  others :
    ∀ place < pciStdHeaderSizeof,
      place ≠ statusPlace → place ≠ capabilitiesPlace →
        after place = hdr place

end Spec

/-! ## Sizes -/

section Sizes

variable {hdr other : Nat → UInt8} {pos : Nat}

theorem peek_two (hdr : Nat → UInt8) (place : Nat) :
    peek hdr place 2 = [hdr place, hdr (place + 1)] :=
  rfl

theorem emulated_size {archHasPciExp : Bool}
    (emulates : Emulated archHasPciExp hdr pos) :
    10 ≤ vfioPciCapSize hdr pos := by
  rw [vfioPciCapSize]
  split
  · decide
  · split
    · rw [vfioPciMsiCapSize]
      omega
    · split
      · decide
      · rcases emulates with msix | msi | ⟨exp, -⟩ <;> contradiction

/-- The size does not depend on the link. -/
theorem vfioPciCapSize_congr
    (same :
      ∀ index < 10, index ≠ 1 → other (pos + index) = hdr (pos + index)) :
    vfioPciCapSize other pos = vfioPciCapSize hdr pos := by
  have type : other pos = hdr pos := same 0 (by decide) (by decide)
  have low : other (pos + 2) = hdr (pos + 2) := same 2 (by decide) (by decide)
  have high : other (pos + 3) = hdr (pos + 3) :=
    same 3 (by decide) (by decide)
  rw [vfioPciCapSize, vfioPciCapSize, vfioPciMsiCapSize, vfioPciMsiCapSize,
    type, peek_two, peek_two, low, high]

/-- What is copied to a header. -/
theorem copied_inside (virtHdr : Nat → UInt8) {size place : Nat}
    (begins : pos ≤ place) (ends : place < pos + size) :
    poke virtHdr pos (peek hdr pos size) place = hdr place := by
  obtain ⟨index, rfl⟩ := Nat.exists_eq_add_of_le begins
  have within : index < (peek hdr pos size).length := by
    rw [peek_length]
    omega
  rw [poke_inside virtHdr pos within]
  simp only [peek, List.getElem_map, List.getElem_range]

theorem copied_outside (virtHdr : Nat → UInt8) {size place : Nat}
    (outside : ¬ (pos ≤ place ∧ place < pos + size)) :
    poke virtHdr pos (peek hdr pos size) place = virtHdr place := by
  apply poke_outside
  rw [peek_length]
  omega

end Sizes

/-! ## One capability -/

instance (size : Nat → Nat) : Std.Symm (Apart size) :=
  ⟨fun _ _ => Or.symm⟩

/-- Capabilities that are inside the area and apart. -/
structure Placed (hdr : Nat → UInt8) (caps : List Nat) : Prop where
  inside :
    ∀ pos ∈ caps,
      pciStdHeaderSizeof ≤ pos ∧
        pos + vfioPciCapSize hdr pos ≤ pciDevCfgSizeLegacy ∧
          10 ≤ vfioPciCapSize hdr pos
  apart : caps.Pairwise (Apart (vfioPciCapSize hdr))

/--
The second header has these capabilities of a header, and no other byte; the
first one is as it was but for their links, the head and the status.
-/
structure Filtering (hdr : Nat → UInt8) (kept : List Nat)
    (headers : Headers) : Prop where
  listed :
    Listed (nextCap headers.virtHdr) 0
      (headers.hdr capabilitiesPlace).toNat kept
  hasCaps :
    headers.hdr statusPlace &&& pciStatusCapList ≠ 0 ↔ kept ≠ []
  copied :
    ∀ pos ∈ kept, ∀ index < vfioPciCapSize hdr pos, index ≠ 1 →
      headers.virtHdr (pos + index) = hdr (pos + index)
  blank :
    ∀ place, (∀ pos ∈ kept, ¬ Covers hdr pos place) →
      headers.virtHdr place = 0
  same :
    ∀ place, place ≠ statusPlace → place ≠ capabilitiesPlace →
      (∀ pos ∈ kept, place ≠ pos + 1) → headers.hdr place = hdr place

section Add

variable {hdr : Nat → UInt8} {kept : List Nat} {headers : Headers}
  {pos turns : Nat}

/-- The last one is apart from each of the others. -/
theorem Placed.last_apart (placed : Placed hdr (kept ++ [pos])) {other : Nat}
    (member : other ∈ kept) : Apart (vfioPciCapSize hdr) other pos :=
  (List.pairwise_append.1 placed.apart).2.2 other member pos
    List.mem_cons_self

theorem Placed.of_append {more : List Nat}
    (placed : Placed hdr (kept ++ more)) : Placed hdr kept :=
  ⟨(List.forall_mem_append.mp placed.inside).1,
    (List.pairwise_append.1 placed.apart).1⟩

/-- The bytes of the last one are as they were. -/
theorem Filtering.last_same (filtering : Filtering hdr kept headers)
    (placed : Placed hdr (kept ++ [pos])) {index : Nat}
    (within : index < vfioPciCapSize hdr pos) :
    headers.hdr (pos + index) = hdr (pos + index) := by
  have area :=
    (placed.inside pos (List.mem_append_right _ List.mem_cons_self)).1
  have status : statusPlace < pciStdHeaderSizeof := by decide
  have head : capabilitiesPlace < pciStdHeaderSizeof := by decide
  apply filtering.same _ (by omega) (by omega)
  intro other member
  have size := (placed.inside other (List.mem_append_left _ member)).2.2
  rcases placed.last_apart member with apart | apart <;> omega

/-- Two different ones are apart. -/
theorem Placed.apart_of_ne (placed : Placed hdr kept) {first second : Nat}
    (left : first ∈ kept) (right : second ∈ kept)
    (different : first ≠ second) :
    Apart (vfioPciCapSize hdr) first second :=
  placed.apart.forall left right different

/-- A link is not one of the other bytes of a capability. -/
theorem Placed.link_apart (placed : Placed hdr kept) {first second : Nat}
    (left : first ∈ kept) (right : second ∈ kept) {index : Nat}
    (within : index < vfioPciCapSize hdr first) (other : index ≠ 1) :
    first + index ≠ second + 1 := by
  have size := (placed.inside second right).2.2
  by_cases same : first = second
  · omega
  · rcases placed.apart_of_ne left right same with apart | apart <;> omega

/-- The bytes of the second header, when only links were changed before. -/
structure Copied (hdr : Nat → UInt8) (kept : List Nat) (pos : Nat)
    (linked virtHdr : Nat → UInt8) : Prop where
  copied :
    ∀ other ∈ kept ++ [pos], ∀ index < vfioPciCapSize hdr other,
      index ≠ 1 → virtHdr (other + index) = hdr (other + index)
  blank :
    ∀ place, (∀ other ∈ kept ++ [pos], ¬ Covers hdr other place) →
      virtHdr place = 0
  ends : virtHdr (pos + 1) = 0
  links : ∀ other ∈ kept, virtHdr (other + 1) = linked (other + 1)

theorem Filtering.copy (filtering : Filtering hdr kept headers)
    (placed : Placed hdr (kept ++ [pos])) {linked : Nat → UInt8}
    (only :
      ∀ place, (∀ other ∈ kept, place ≠ other + 1) →
        linked place = headers.virtHdr place) :
    let hdr' := Function.update headers.hdr (pos + 1) 0
    Copied hdr kept pos linked
      (poke linked pos (peek hdr' pos (vfioPciCapSize hdr' pos))) := by
  intro hdr'
  have enough :=
    (placed.inside pos (List.mem_append_right _ List.mem_cons_self)).2.2
  have bytes :
      ∀ index < vfioPciCapSize hdr pos, index ≠ 1 →
        hdr' (pos + index) = hdr (pos + index) := by
    intro index within other
    rw [← filtering.last_same placed within]
    exact Function.update_of_ne (by omega) _ _
  have size : vfioPciCapSize hdr' pos = vfioPciCapSize hdr pos :=
    vfioPciCapSize_congr fun index within other =>
      bytes index (Nat.lt_of_lt_of_le within enough) other
  rw [size]
  constructor
  · intro other member index within notLink
    rcases List.mem_append.1 member with old | new
    · have outside :
          ¬ (pos ≤ other + index ∧
            other + index < pos + vfioPciCapSize hdr pos) := by
        rcases placed.last_apart old with apart | apart <;> omega
      rw [copied_outside _ outside, only]
      · exact filtering.copied other old index within notLink
      · intro second right
        exact placed.of_append.link_apart old right within notLink
    · obtain rfl := List.mem_singleton.1 new
      rw [copied_inside _ (Nat.le_add_right ..)
        (Nat.add_lt_add_left within _)]
      exact bytes index within notLink
  · intro place uncovered
    rw [copied_outside _
      (uncovered pos (List.mem_append_right _ List.mem_cons_self)), only]
    · exact
        filtering.blank place (List.forall_mem_append.mp uncovered).1
    · rintro other member rfl
      have size := (placed.inside other (List.mem_append_left _ member)).2.2
      exact
        uncovered other (List.mem_append_left _ member)
          ⟨Nat.le_add_right .., by omega⟩
  · rw [copied_inside _ (Nat.le_add_right ..) (by omega)]
    exact Function.update_self ..
  · intro other member
    have size := (placed.inside other (List.mem_append_left _ member)).2.2
    apply copied_outside
    rcases placed.last_apart member with apart | apart <;> omega

theorem toNat_ofNat_pos (placed : Placed hdr (kept ++ [pos])) :
    (UInt8.ofNat pos).toNat = pos ∧ pos ≠ 0 := by
  obtain ⟨low, high, size⟩ :=
    placed.inside pos (List.mem_append_right _ List.mem_cons_self)
  have area : 0 < pciStdHeaderSizeof := by decide
  have fits : pos < 2 ^ 8 := by
    have legacy : pciDevCfgSizeLegacy = 2 ^ 8 := rfl
    omega
  exact ⟨UInt8.toNat_ofNat_of_lt' fits, by omega⟩

theorem link_place (placed : Placed hdr (kept ++ [pos])) {place : Nat}
    (standard : place < pciStdHeaderSizeof) : place ≠ pos + 1 := by
  have low :=
    (placed.inside pos (List.mem_append_right _ List.mem_cons_self)).1
  omega

/-- The first capability that is kept. -/
theorem Filtering.add_first (filtering : Filtering hdr [] headers)
    (placed : Placed hdr [pos]) :
    ∃ after,
      vfioPciAddCap turns headers pos = some after ∧
        Filtering hdr [pos] after := by
  have copy := filtering.copy placed (fun _ _ => rfl)
  obtain ⟨byte, positive⟩ := @toNat_ofNat_pos hdr [] pos placed
  have head : capabilitiesPlace ≠ pos + 1 :=
    @link_place hdr [] pos placed _ (by decide)
  have empty :
      Function.update headers.hdr (pos + 1) 0 capabilitiesPlace = 0 := by
    rw [Function.update_of_ne head]
    exact UInt8.toNat_inj.1 (filtering.listed.start_eq_null_iff.2 rfl)
  have ne : capabilitiesPlace ≠ statusPlace := by decide
  refine ⟨_, if_pos empty, ?_⟩
  refine
    { listed := ?_
      hasCaps := iff_of_true ?_ (List.cons_ne_nil _ _)
      copied := copy.copied
      blank := copy.blank
      same := ?_ }
  · dsimp only
    rw [Function.update_of_ne ne, Function.update_self, byte]
    exact Listed.singleton (congrArg UInt8.toNat copy.ends) positive
  · dsimp only
    rw [Function.update_self, set_self]
    decide
  · intro place notStatus notHead notLink
    dsimp only
    rw [Function.update_of_ne notStatus, Function.update_of_ne notHead,
      Function.update_of_ne (notLink pos List.mem_cons_self)]
    exact filtering.same place notStatus notHead nofun

/-- Another one. -/
theorem Filtering.add_next {last : Nat}
    (filtering : Filtering hdr (kept ++ [last]) headers)
    (placed : Placed hdr (kept ++ [last] ++ [pos]))
    (enough : kept.length < turns) :
    ∃ after,
      vfioPciAddCap turns headers pos = some after ∧
        Filtering hdr (kept ++ [last] ++ [pos]) after := by
  obtain ⟨byte, positive⟩ := toNat_ofNat_pos placed
  have head : capabilitiesPlace ≠ pos + 1 := link_place placed (by decide)
  have status : statusPlace ≠ pos + 1 := link_place placed (by decide)
  have filled :
      Function.update headers.hdr (pos + 1) 0 capabilitiesPlace ≠ 0 := by
    rw [Function.update_of_ne head]
    intro empty
    have none :=
      filtering.listed.start_eq_null_iff.1 (congrArg UInt8.toNat empty)
    exact List.append_ne_nil_of_right_ne_nil _ (List.cons_ne_nil _ _) none
  have found :
      lastPlace (nextCap headers.virtHdr) 0 turns
          (Function.update headers.hdr (pos + 1) 0 capabilitiesPlace).toNat =
        some last := by
    rw [Function.update_of_ne head]
    exact filtering.listed.lastPlace_eq enough
  have copy :=
    filtering.copy placed
      (fun place beside =>
        Function.update_of_ne
          (beside last (List.mem_append_right _ List.mem_cons_self))
          (UInt8.ofNat pos) headers.virtHdr)
  have earlierLast : ∀ earlier ∈ kept, earlier + 1 ≠ last + 1 := by
    intro earlier member same
    have first :=
      (placed.of_append.inside earlier (List.mem_append_left _ member)).2.2
    have second :=
      (placed.of_append.inside last
        (List.mem_append_right _ List.mem_cons_self)).2.2
    rcases placed.of_append.last_apart member with apart | apart <;> omega
  refine ⟨_, (if_neg filled).trans (by rw [found]; rfl), ?_⟩
  refine
    { listed := ?_
      hasCaps := ?_
      copied := copy.copied
      blank := copy.blank
      same := ?_ }
  · dsimp only
    rw [Function.update_of_ne head]
    refine filtering.listed.append ?_ ?_ (congrArg UInt8.toNat copy.ends)
      positive
    · intro earlier member
      rw [nextCap, copy.links earlier (List.mem_append_left _ member),
        Function.update_of_ne (earlierLast earlier member)]
      rfl
    · rw [nextCap,
        copy.links last (List.mem_append_right _ List.mem_cons_self),
        Function.update_self, byte]
  · dsimp only
    rw [Function.update_of_ne status]
    refine iff_of_true (filtering.hasCaps.2 ?_) ?_
    · exact List.append_ne_nil_of_right_ne_nil _ (List.cons_ne_nil _ _)
    · exact List.append_ne_nil_of_right_ne_nil _ (List.cons_ne_nil _ _)
  · intro place notStatus notHead notLink
    dsimp only
    rw [Function.update_of_ne
      (notLink pos (List.mem_append_right _ List.mem_cons_self))]
    exact
      filtering.same place notStatus notHead
        (List.forall_mem_append.mp notLink).1

/-- Both cases. -/
theorem Filtering.add (filtering : Filtering hdr kept headers)
    (placed : Placed hdr (kept ++ [pos])) (enough : kept.length < turns) :
    ∃ after,
      vfioPciAddCap turns headers pos = some after ∧
        Filtering hdr (kept ++ [pos]) after := by
  rcases List.eq_nil_or_concat' kept with rfl | ⟨front, last, rfl⟩
  · exact filtering.add_first placed
  · refine filtering.add_next placed ?_
    rw [List.length_append, List.length_singleton] at enough
    omega

end Add

/-! ## All capabilities -/

section Loop

variable {archHasPciExp : Bool} {hdr : Nat → UInt8} {turns : Nat}

/-- What holds of the capabilities that are still to be looked at. -/
structure Pending (hdr : Nat → UInt8) (kept todo : List Nat) (start : Nat) :
    Prop where
  listed : Listed (nextCap hdr) 0 start todo
  area : ∀ pos ∈ todo, pciStdHeaderSizeof ≤ pos
  aligned : ∀ pos ∈ kept ++ todo, pos % 4 = 0
  distinct : (kept ++ todo).Nodup

/-- A capability that is not looked at yet is as it was. -/
theorem Filtering.pending_same {kept todo : List Nat} {start pos : Nat}
    {headers : Headers} (filtering : Filtering hdr kept headers)
    (pending : Pending hdr kept (pos :: todo) start) :
    headers.hdr pos = hdr pos ∧
      nextCap headers.hdr pos = nextCap hdr pos := by
  have area := pending.area pos List.mem_cons_self
  have status : statusPlace < pciStdHeaderSizeof := by decide
  have head : capabilitiesPlace < pciStdHeaderSizeof := by decide
  have here := pending.aligned pos
    (List.mem_append_right _ List.mem_cons_self)
  have links : ∀ other ∈ kept, pos ≠ other + 1 ∧ pos + 1 ≠ other + 1 := by
    intro other member
    have there := pending.aligned other (List.mem_append_left _ member)
    have different : other ≠ pos := by
      rintro rfl
      exact
        (List.nodup_append.1 pending.distinct).2.2 other member other
          List.mem_cons_self rfl
    omega
  constructor
  · exact
      filtering.same pos (by omega) (by omega)
        fun other member => (links other member).1
  · have byte :=
      filtering.same (pos + 1) (by omega) (by omega)
        fun other member => (links other member).2
    rw [nextCap, byte]
    rfl

theorem Pending.keep {kept todo : List Nat} {start pos : Nat}
    (pending : Pending hdr kept (pos :: todo) start) :
    start = pos ∧ Pending hdr (kept ++ [pos]) todo (nextCap hdr start) := by
  obtain ⟨same, tail⟩ := pending.listed.tail
  have moved : kept ++ [pos] ++ todo = kept ++ pos :: todo := by
    rw [List.append_assoc, List.singleton_append]
  refine
    ⟨same, tail, (List.forall_mem_cons.mp pending.area).2, ?_, ?_⟩
  · rw [moved]
    exact pending.aligned
  · rw [moved]
    exact pending.distinct

theorem Pending.skip {kept todo : List Nat} {start pos : Nat}
    (pending : Pending hdr kept (pos :: todo) start) :
    start = pos ∧ Pending hdr kept todo (nextCap hdr start) := by
  obtain ⟨same, tail⟩ := pending.listed.tail
  have fewer : (kept ++ todo).Sublist (kept ++ pos :: todo) :=
    List.Sublist.append_left (List.sublist_cons_self _ _) _
  exact
    ⟨same, tail, (List.forall_mem_cons.mp pending.area).2,
      fun other member => pending.aligned other (fewer.subset member),
      pending.distinct.sublist fewer⟩

/-- The loop adds the emulated ones of the capabilities that are left. -/
theorem parseLoop_filters {kept todo : List Nat} {fuel start : Nat}
    {pdev : VfioPciDevice} {virtHdr : Nat → UInt8}
    (filtering : Filtering hdr kept ⟨pdev.hdr, virtHdr⟩)
    (placed : Placed hdr (kept ++ emulated archHasPciExp hdr todo))
    (pending : Pending hdr kept todo start)
    (enough : kept.length + todo.length ≤ turns)
    (fuelled : todo.length < fuel) :
    ∃ after virtAfter,
      parseLoop archHasPciExp turns fuel pdev virtHdr start =
          some (after, virtAfter) ∧
        Filtering hdr (kept ++ emulated archHasPciExp hdr todo)
          ⟨after.hdr, virtAfter⟩ := by
  induction todo generalizing kept fuel start pdev virtHdr with
  | nil =>
      obtain ⟨fewer, rfl⟩ := Nat.exists_eq_succ_of_ne_zero
        (Nat.ne_zero_of_lt fuelled)
      have ends : start = 0 := pending.listed.start_eq_null_iff.2 rfl
      refine ⟨pdev, virtHdr, if_pos ends, ?_⟩
      rw [emulated, List.filter_nil, List.append_nil]
      exact filtering
  | cons pos rest induction =>
      obtain ⟨fewer, rfl⟩ := Nat.exists_eq_succ_of_ne_zero
        (Nat.ne_zero_of_lt fuelled)
      obtain ⟨type, link⟩ :
          pdev.hdr pos = hdr pos ∧ nextCap pdev.hdr pos = nextCap hdr pos :=
        filtering.pending_same pending
      obtain rfl : start = pos := pending.skip.1
      have nonzero : start ≠ 0 := by
        rintro rfl
        exact pending.listed.nonnull List.mem_cons_self
      rw [List.length_cons] at enough fuelled
      rw [parseLoop, if_neg nonzero, type, link]
      by_cases keeps : Emulated archHasPciExp hdr start
      · have parts :
            emulated archHasPciExp hdr (start :: rest) =
              [start] ++ emulated archHasPciExp hdr rest :=
          List.filter_cons_of_pos (decide_eq_true keeps)
        rw [parts, ← List.append_assoc] at placed ⊢
        obtain ⟨headers, added, next⟩ :=
          filtering.add placed.of_append (by omega : kept.length < turns)
        -- what else is noted of the capability does not matter
        have goes (noted : Headers → VfioPciDevice)
            (plain : ∀ headers, (noted headers).hdr = headers.hdr) :
            ∃ after virtAfter,
              ((vfioPciAddCap turns ⟨pdev.hdr, virtHdr⟩ start).bind
                    fun headers =>
                      parseLoop archHasPciExp turns fewer (noted headers)
                        headers.virtHdr (nextCap hdr start)) =
                  some (after, virtAfter) ∧
                Filtering hdr
                  (kept ++ [start] ++ emulated archHasPciExp hdr rest)
                  ⟨after.hdr, virtAfter⟩ := by
          rw [added, Option.bind_some]
          refine induction ?_ placed pending.keep.2 ?_ (by omega)
          · rw [plain]
            exact next
          · rw [List.length_append, List.length_singleton]
            omega
        split
        case isTrue => exact goes _ fun _ => rfl
        case isFalse notMsix =>
          split
          case isTrue => exact goes _ fun _ => rfl
          case isFalse notMsi =>
            rw [if_pos ((keeps.resolve_left notMsix).resolve_left notMsi)]
            exact goes _ fun _ => rfl
      · have parts :
            emulated archHasPciExp hdr (start :: rest) =
              emulated archHasPciExp hdr rest :=
          List.filter_cons_of_neg (by simpa using keeps)
        have others := keeps
        rw [Emulated, not_or, not_or] at others
        rw [parts] at placed ⊢
        rw [if_neg others.1, if_neg others.2.1, if_neg others.2.2]
        exact induction filtering placed pending.skip.2 (by omega) (by omega)

end Loop

/-! ## The whole header -/

section Parse

variable {archHasPciExp : Bool} {hdr : Nat → UInt8} {caps : List Nat}

/-- The places of the emulated ones. -/
theorem WellFormedCaps.placed
    (wellFormed : WellFormedCaps archHasPciExp hdr caps) :
    Placed hdr (emulated archHasPciExp hdr caps) := by
  have sizes :
      ∀ pos ∈ emulated archHasPciExp hdr caps,
        pos ∈ caps ∧
          extent archHasPciExp hdr pos = vfioPciCapSize hdr pos ∧
            10 ≤ vfioPciCapSize hdr pos := by
    intro pos member
    obtain ⟨listed, keeps⟩ := List.mem_filter.1 member
    have emulates := of_decide_eq_true keeps
    exact ⟨listed, if_pos emulates, emulated_size emulates⟩
  constructor
  · intro pos member
    obtain ⟨listed, size, enough⟩ := sizes pos member
    obtain ⟨low, high⟩ := wellFormed.inside pos listed
    exact ⟨low, size ▸ high, enough⟩
  · refine (wellFormed.apart.filter _).imp_of_mem ?_
    intro pos other left right apart
    rwa [Apart, (sizes pos left).2.1, (sizes other right).2.1] at apart

theorem extent_pos (pos : Nat) : 0 < extent archHasPciExp hdr pos := by
  rw [extent]
  split
  case isTrue emulates =>
    exact Nat.lt_of_lt_of_le (by decide) (emulated_size emulates)
  case isFalse => decide

theorem WellFormedCaps.nodup
    (wellFormed : WellFormedCaps archHasPciExp hdr caps) : caps.Nodup := by
  refine wellFormed.apart.imp ?_
  rintro pos other apart rfl
  have some := @extent_pos archHasPciExp hdr pos
  rcases apart with apart | apart <;> omega

/-- The head without its two lowest bits is the head. -/
theorem WellFormedCaps.head
    (wellFormed : WellFormedCaps archHasPciExp hdr caps) :
    hdr capabilitiesPlace &&& ~~~3 = hdr capabilitiesPlace := by
  have aligned : (hdr capabilitiesPlace).toNat % 4 = 0 := by
    cases caps with
    | nil => rw [wellFormed.listed.start_eq_null_iff.2 rfl]
    | cons pos rest =>
        rw [wellFormed.listed.tail.1]
        exact wellFormed.aligned pos List.mem_cons_self
  apply clear_of_clear
  rw [← UInt8.toNat_inj, UInt8.toNat_and]
  exact (Nat.and_two_pow_sub_one_eq_mod _ 2).trans aligned

/-- The header in which the loop begins. -/
def beginning (hdr : Nat → UInt8) : Nat → UInt8 :=
  Function.update
    (Function.update hdr statusPlace
      (hdr statusPlace &&& ~~~pciStatusCapList))
    capabilitiesPlace 0

theorem beginning_filtering (hdr : Nat → UInt8) :
    Filtering hdr [] ⟨beginning hdr, fun _ => 0⟩ where
  listed := Listed.nil
  hasCaps := by
    have ne : statusPlace ≠ capabilitiesPlace := by decide
    refine iff_of_false ?_ (fun some => some rfl)
    rw [beginning]
    dsimp only
    rw [Function.update_of_ne ne, Function.update_self, not_not]
    exact clear_self _ _
  copied := nofun
  blank _ _ := rfl
  same := by
    intro place notStatus notHead _
    rw [beginning]
    dsimp only
    rw [Function.update_of_ne notHead, Function.update_of_ne notStatus]

theorem WellFormedCaps.pending
    (wellFormed : WellFormedCaps archHasPciExp hdr caps) :
    Pending hdr [] caps (hdr capabilitiesPlace).toNat where
  listed := wellFormed.listed
  area pos member := (wellFormed.inside pos member).1
  aligned := wellFormed.aligned
  distinct := wellFormed.nodup

/-- The area of the capabilities is replaced by that of the second header. -/
theorem Filtering.replaced {headers : Headers}
    (filtering : Filtering hdr (emulated archHasPciExp hdr caps) headers)
    (placed : Placed hdr (emulated archHasPciExp hdr caps)) :
    FilteredCaps archHasPciExp hdr caps
      (poke headers.hdr pciStdHeaderSizeof
        (peek headers.virtHdr pciStdHeaderSizeof
          (pciDevCfgSizeLegacy - pciStdHeaderSizeof))) := by
  have whole :
      pciStdHeaderSizeof + (pciDevCfgSizeLegacy - pciStdHeaderSizeof) =
        pciDevCfgSizeLegacy := by
    decide
  have inArea :
      ∀ place, pciStdHeaderSizeof ≤ place → place < pciDevCfgSizeLegacy →
        poke headers.hdr pciStdHeaderSizeof
            (peek headers.virtHdr pciStdHeaderSizeof
              (pciDevCfgSizeLegacy - pciStdHeaderSizeof)) place =
          headers.virtHdr place :=
    fun place begins ends => copied_inside _ begins (whole ▸ ends)
  have inHeader :
      ∀ place < pciStdHeaderSizeof,
        poke headers.hdr pciStdHeaderSizeof
            (peek headers.virtHdr pciStdHeaderSizeof
              (pciDevCfgSizeLegacy - pciStdHeaderSizeof)) place =
          headers.hdr place :=
    fun place before =>
      copied_outside _ fun inside => Nat.not_le.2 before inside.1
  constructor
  · rw [inHeader capabilitiesPlace (by decide)]
    refine filtering.listed.congr fun pos member => ?_
    obtain ⟨low, high, size⟩ := placed.inside pos member
    rw [nextCap, inArea (pos + 1) (by omega) (by omega)]
    rfl
  · rw [inHeader statusPlace (by decide)]
    exact filtering.hasCaps
  · intro pos member index within notLink
    obtain ⟨low, high, -⟩ := placed.inside pos member
    rw [inArea (pos + index) (by omega) (by omega)]
    exact filtering.copied pos member index within notLink
  · intro place low high uncovered
    rw [inArea place low high]
    exact filtering.blank place uncovered
  · intro place before notStatus notHead
    rw [inHeader place before]
    refine filtering.same place notStatus notHead fun pos member => ?_
    have low := (placed.inside pos member).1
    omega

/--
Exactly the emulated capabilities are left, in their order and at their
places, and everything else in the area is zero.
-/
theorem vfioPciParseCaps_filters (archHasPciExp : Bool)
    (pdev : VfioPciDevice) (caps : List Nat)
    (wellFormed : WellFormedCaps archHasPciExp pdev.hdr caps) :
    ∀ turns, caps.length < turns →
      ∃ after,
        vfioPciParseCaps archHasPciExp turns pdev = some after ∧
          FilteredCaps archHasPciExp pdev.hdr caps after.hdr := by
  intro turns enough
  obtain ⟨after, virtAfter, looped, filtering⟩ :
      ∃ (after : VfioPciDevice) (virtAfter : Nat → UInt8),
        parseLoop archHasPciExp turns turns
            { pdev with hdr := beginning pdev.hdr } (fun _ => 0)
            (pdev.hdr capabilitiesPlace).toNat =
          some (after, virtAfter) ∧
          Filtering pdev.hdr ([] ++ emulated archHasPciExp pdev.hdr caps)
            ⟨after.hdr, virtAfter⟩ :=
    parseLoop_filters (beginning_filtering pdev.hdr) wellFormed.placed
      wellFormed.pending (by rw [List.length_nil]; omega) enough
  let finished : VfioPciDevice :=
    { after with
      hdr :=
        poke after.hdr pciStdHeaderSizeof
          (peek virtAfter pciStdHeaderSizeof
            (pciDevCfgSizeLegacy - pciStdHeaderSizeof)) }
  refine ⟨finished, ?_, filtering.replaced wellFormed.placed⟩
  rw [vfioPciParseCaps, if_neg wellFormed.hasCaps, wellFormed.head]
  exact congrArg (Option.map _) looped

end Parse

/-- MSI-X at 0x40, one that is not emulated at 0x50, and MSI at 0x60. -/
def threeCaps : VfioPciDevice where
  hdr :=
    poke
      (poke
        (poke (poke (poke (fun _ => 0) statusPlace [0x10])
            capabilitiesPlace [0x40])
          0x40 [0x11, 0x50, 0x07, 0x00, 0x00, 0x20])
        0x50 [0x09, 0x60, 0x08])
      0x60 [0x05, 0x00, 0x80, 0x00]
  msixPos := 0
  msiPos := 0
  modeMsix := false
  modeMsi := false

theorem threeCaps_wellFormed :
    WellFormedCaps true threeCaps.hdr [0x40, 0x50, 0x60] where
  hasCaps := by decide
  listed := ⟨.link (.link (.link (.stop 0))), by decide⟩
  aligned := by decide
  inside := by decide
  apart := by
    unfold Apart
    decide

/-- The guest sees two of them. -/
theorem vfioPciParseCaps_three :
    ∃ after,
      vfioPciParseCaps true 4 threeCaps = some after ∧
        FilteredCaps true threeCaps.hdr [0x40, 0x50, 0x60] after.hdr :=
  vfioPciParseCaps_filters true threeCaps _ threeCaps_wellFormed 4
    (Nat.lt_succ_self 3)

end Kemu.Vfio.Caps
