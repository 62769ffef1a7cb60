import Kemu.Disk.Qcow.Coherence
import Kemu.Virtio.Blk

/-!
# The block device over a mapped image

A raw image that is opened read-only is mapped privately, and a transfer
copies between the mapping and the buffers of the guest, which are taken to
be mapped.  Nothing compares the sector of a request with the size of the
image: it is the guest that keeps the copies inside.
-/

namespace Kemu.Virtio.BlkMapped

open Kemu.Disk.Qcow (applyIovecs fillIovecs iovLength)
open Kemu.Lib.Transition
open Kemu.Util.IoVector Kemu.Util.ReadWrite
open Kemu.Virtio.Blk

/-! ## The image -/

/--
The mapping `disk->priv` of an image of `disk->size` bytes and the memory of
the guest.  `strayed` says that a copy went behind the image.
-/
structure Mapped where
  priv : Buffer
  size : UInt64
  mem : Buffer
  strayed : Bool

/-- The `memcpy` of a buffer, out of the image or into it. -/
def mmapCopy (write : Bool) (disk : Mapped) (offset : Nat) (iov : Iovec) :
    Mapped where
  size := disk.size
  priv :=
    if write then
      store disk.priv offset iov.len disk.mem iov.base
    else
      disk.priv
  mem :=
    if write then
      disk.mem
    else
      store disk.mem iov.base iov.len disk.priv offset
  strayed :=
    disk.strayed ||
      decide (iov.len ≠ 0 ∧ disk.size.toNat < offset + iov.len)

/-- The loop of `raw_image__read_mmap` and `raw_image__write_mmap`. -/
def mmapLoop (write : Bool) :
    Mapped → UInt64 → List Iovec → Int → Int × Mapped
  | disk, _, [], total => (total, disk)
  | disk, offset, iov :: rest, total =>
      mmapLoop write (mmapCopy write disk offset.toNat iov)
        (offset + .ofNat iov.len) rest (total + iov.len)

/-- `raw_image__read_mmap`. -/
def rawImageReadMmap (disk : Mapped) (sector : UInt64)
    (iov : List Iovec) : Int × Mapped :=
  mmapLoop false disk (sector <<< 9) iov 0

/-- `raw_image__write_mmap`. -/
def rawImageWriteMmap (disk : Mapped) (sector : UInt64)
    (iov : List Iovec) : Int × Mapped :=
  mmapLoop true disk (sector <<< 9) iov 0

/-! ## The device -/

/-- The device and its image. -/
structure State where
  dev : BlkDev
  disk : Mapped

/-- The transfer of a turn, which does not depend on its answer. -/
def transferOf (dev : BlkDev) (env : BlkEnv) : Option DiskCall :=
  (virtioBlkDoIo dev env).diskCalls[dev.diskCalls.length]?

/-- The answer of the image to a transfer. -/
def answer (env : BlkEnv) (total : Int) : BlkEnv :=
  { env with
    ops := { env.ops with read := some total, write := some total } }

/-- The image when a turn begins: the guest has its memory as it wants. -/
def Mapped.during (disk : Mapped) (env : BlkEnv) : Mapped :=
  { disk with mem := fun place => (env.hostMem place).getD 0 }

/-- A turn of the loop of `virtio_blk_do_io`. -/
def mappedTurn (state : State) (env : BlkEnv) : State :=
  let disk := state.disk.during env
  match transferOf state.dev env with
  | none => ⟨virtioBlkDoIo state.dev env, disk⟩
  | some call =>
      let done :=
        if call.write then
          rawImageWriteMmap disk call.sector call.iov
        else
          rawImageReadMmap disk call.sector call.iov
      ⟨virtioBlkDoIo state.dev (answer env done.1), done.2⟩

/-- After `raw_image_probe` and `virtio_blk__init_one`. -/
def mappedStart (vq : BlkQueue) (used : Ring.VringUsed) (file : Buffer)
    (size : UInt64) : State where
  dev := virtioBlkInitOne vq used
  disk := { priv := file, size := size, mem := fun _ => 0, strayed := false }

/-! ## What is to hold -/

/-- The bytes of a transfer lie in the image. -/
def Inside (size : UInt64) (offset : Nat) (iov : List Iovec) : Prop :=
  iovLength iov = 0 ∨ offset + iovLength iov ≤ size.toNat

/-- What a transfer is to do to the image or to the memory. -/
def Mapped.transfer (disk : Mapped) (write : Bool) (offset : Nat)
    (iov : List Iovec) : Mapped :=
  if write then
    { disk with priv := applyIovecs disk.mem disk.priv offset iov }
  else
    { disk with mem := fillIovecs disk.priv disk.mem offset iov }

/-- The guest asks for no byte behind the image. -/
def Fits (state : State) (env : BlkEnv) : Prop :=
  ∀ call ∈ transferOf state.dev env,
    Inside state.disk.size (call.sector <<< 9).toNat call.iov

/-- A turn transfers the bytes that the guest asks for, and no other. -/
def Served (state : State) (env : BlkEnv) : Prop :=
  (mappedTurn state env).disk =
    (transferOf state.dev env).elim (state.disk.during env) fun call =>
      (state.disk.during env).transfer call.write
        (call.sector <<< 9).toNat call.iov

/-! ## Copies -/

section Copies

variable (write : Bool) {disk : Mapped}

theorem mmapLoop_strayed (strayed : disk.strayed = true)
    (offset : UInt64) (iov : List Iovec) (total : Int) :
    (mmapLoop write disk offset iov total).2.strayed = true := by
  induction iov generalizing disk offset total with
  | nil => exact strayed
  | cons entry rest induction =>
      apply induction
      simp [mmapCopy, strayed]

/-- An offset does not overflow in a copy that lies in the image. -/
theorem offset_add {size offset : UInt64} {len : Nat}
    (inside : len = 0 ∨ offset.toNat + len ≤ size.toNat) :
    (offset + .ofNat len).toNat = offset.toNat + len := by
  have bound := size.toNat_lt
  have bound' := offset.toNat_lt
  rw [UInt64.toNat_add, UInt64.toNat_ofNat']
  omega

theorem mmapCopy_strayed (still : disk.strayed = false) (offset : Nat)
    (entry : Iovec) :
    (mmapCopy write disk offset entry).strayed = true ↔
      ¬ (entry.len = 0 ∨ offset + entry.len ≤ disk.size.toNat) := by
  simp [mmapCopy, still]

/-- The loop strays, or it transfers what it should. -/
theorem mmapLoop_spec (still : disk.strayed = false)
    (offset : UInt64) (iov : List Iovec) (total : Int) :
    (Inside disk.size offset.toNat iov ∧
        (mmapLoop write disk offset iov total).2 =
          disk.transfer write offset.toNat iov) ∨
      (¬ Inside disk.size offset.toNat iov ∧
        (mmapLoop write disk offset iov total).2.strayed = true) := by
  induction iov generalizing disk offset total with
  | nil =>
      refine Or.inl ⟨Or.inl rfl, ?_⟩
      cases write <;> rfl
  | cons entry rest induction =>
      have lengthEq :
          iovLength (entry :: rest) = entry.len + iovLength rest := rfl
      have first := mmapCopy_strayed write still offset.toNat entry
      rw [mmapLoop]
      by_cases strayed :
          (mmapCopy write disk offset.toNat entry).strayed = true
      · refine Or.inr ⟨?_, mmapLoop_strayed write strayed ..⟩
        have outside := first.1 strayed
        unfold Inside
        omega
      · have inside := not_not.1 (mt first.2 strayed)
        rw [Bool.not_eq_true] at strayed
        have transfer :
            disk.transfer write offset.toNat (entry :: rest) =
              (mmapCopy write disk offset.toNat entry).transfer write
                (offset.toNat + entry.len) rest := by
          have same := still.trans strayed.symm
          cases write <;> exact congrArg (Mapped.mk _ _ _) same
        have same :
            Inside disk.size offset.toNat (entry :: rest) ↔
              Inside disk.size (offset.toNat + entry.len) rest := by
          unfold Inside
          omega
        have later :=
          induction strayed (offset + .ofNat entry.len) (total + entry.len)
        rw [offset_add inside] at later
        rw [transfer, same]
        exact later

end Copies

/-! ## Runs -/

theorem mappedTurn_spec {state : State} (still : state.disk.strayed = false)
    (env : BlkEnv) :
    (Fits state env →
        (mappedTurn state env).disk.strayed = false ∧ Served state env) ∧
      (¬ Fits state env → (mappedTurn state env).disk.strayed = true) := by
  unfold Fits Served mappedTurn
  cases transferOf state.dev env with
  | none => exact ⟨fun _ => ⟨still, rfl⟩, fun astray => absurd nofun astray⟩
  | some call =>
      have spec :=
        mmapLoop_spec call.write
          (show (state.disk.during env).strayed = false from still)
          (call.sector <<< 9) call.iov 0
      have operation :
          (if call.write then
              rawImageWriteMmap (state.disk.during env) call.sector call.iov
            else
              rawImageReadMmap (state.disk.during env) call.sector
                call.iov) =
            mmapLoop call.write (state.disk.during env) (call.sector <<< 9)
              call.iov 0 := by
        cases call.write <;> rfl
      dsimp only
      rw [operation]
      rcases spec with ⟨inside, copied⟩ | ⟨outside, strayed⟩
      · refine ⟨fun _ => ⟨?_, copied⟩, fun astray => absurd ?_ astray⟩
        · rw [copied]
          cases call.write <;> exact still
        · rintro _ ⟨⟩
          exact inside
      · exact ⟨fun fits => absurd (fits call rfl) outside, fun _ => strayed⟩

/--
In every run of the device, no copy leaves the image and each transfer
changes what it should, exactly when the guest asks for no byte behind the
image.
-/
theorem mapped_disk_iff (vq : BlkQueue) (used : Ring.VringUsed)
    (file : Buffer) (size : UInt64) (envs : List BlkEnv) :
    Throughout mappedTurn (fun state => state.disk.strayed = false)
          (mappedStart vq used file size) envs ∧
        Along mappedTurn Served (mappedStart vq used file size) envs ↔
      Along mappedTurn Fits (mappedStart vq used file size) envs := by
  refine
    throughout_and_along_iff
      (fun (state : State) (still : state.disk.strayed = false) => still)
      (fun _ env still => (mappedTurn_spec still env).1) ?_ rfl envs
  intro state env still astray next
  rw [(mappedTurn_spec still env).2 astray] at next
  cases next

end Kemu.Virtio.BlkMapped
