import Kemu.Net.FrameReads

/-!
# Taking a frame out of a transmit chain

`uip_tx` finds the header and the frame in place where the chain has one or
two buffers, and copies them out of any other chain.  All three ways pass on
the same bytes: what the handlers are given is a function of the bytes of the
chain, however these are split into buffers.
-/

namespace Kemu.Net.TxLayout

open Kemu.Lib.Bytes Kemu.Net.Packet Kemu.Util.IoVector
open Kemu.Net.FrameReads hiding uipTx

/-! ## The code -/

/-- The handlers of `uip_tx`. -/
inductive UipHandler where
  | arp
  | ipv4
deriving DecidableEq, Repr

/-- The `switch` over the type of the frame. -/
def uipHandlerOf (eth : Nat → UInt8) : Option UipHandler :=
  if htons (load16 eth 12) = uipEthPArp then
    some .arp
  else if htons (load16 eth 12) = uipEthPIp then
    some .ipv4
  else
    none

/-- `uip_tx`: the value it returns, and the handler it calls on what. -/
def uipTx (chain : Chain) (vnetLen : Nat) :
    Int × Option (UipHandler × TxFrame) :=
  match txFrame chain vnetLen with
  | .error code => (code, none)
  | .ok frame =>
      (toInt (frame.vnetLen + frame.ethLen),
        (uipHandlerOf frame.eth).map fun handler => (handler, frame))

/-! ## What is passed on -/

/-- A call of a handler: the sizes in its argument and the bytes in these. -/
structure Passed where
  handler : UipHandler
  vnetLen : Nat
  ethLen : Int
  vnet : List UInt8
  eth : List UInt8
deriving DecidableEq, Repr

/-- What a handler is passed. -/
def passed (call : UipHandler × TxFrame) : Passed where
  handler := call.1
  vnetLen := call.2.vnetLen
  ethLen := toInt call.2.ethLen
  vnet := peek call.2.vnet 0 call.2.vnetLen
  eth := peek call.2.eth 0 call.2.ethLen

/-- The value that is returned and the call that is made. -/
def outcome (result : Int × Option (UipHandler × TxFrame)) :
    Int × Option Passed :=
  (result.1, result.2.map passed)

/-- The bytes of a chain. -/
def chainBytes (chain : Chain) : List UInt8 :=
  (chain.iov.take chain.out).flatMap fun entry =>
    peek chain.mem entry.base entry.len

/-- What `uip_tx` is to make of the bytes of a chain. -/
def transmitted (vnetLen : Nat) (bytes : List UInt8) :
    Int × Option Passed :=
  let eth := bytes.drop vnetLen
  (toInt bytes.length,
    (uipHandlerOf fun place => eth.getD place 0).map fun handler =>
      { handler
        vnetLen
        ethLen := toInt eth.length
        vnet := bytes.take vnetLen
        eth })

/-- A frame that consists of the bytes of a chain. -/
structure Holds (frame : TxFrame) (vnetLen : Nat) (bytes : List UInt8) :
    Prop where
  headerLen : frame.vnetLen = vnetLen
  frameLen : frame.ethLen = bytes.length - vnetLen
  header : peek frame.vnet 0 vnetLen = bytes.take vnetLen
  body : peek frame.eth 0 (bytes.length - vnetLen) = bytes.drop vnetLen

theorem peek_getElem? (memory : Nat → UInt8) {size place : Nat}
    (inside : place < size) :
    (peek memory 0 size)[place]? = some (memory place) := by
  simp [peek, inside]

/-- The type of a frame is in its first 14 bytes. -/
theorem uipHandlerOf_congr {first second : Nat → UInt8}
    (same : ∀ place < 14, first place = second place) :
    uipHandlerOf first = uipHandlerOf second := by
  have load : load16 first 12 = load16 second 12 := by
    rw [load16, load16]
    congr 2
    apply List.map_congr_left
    intro index member
    have small := List.mem_range.1 member
    exact same (12 + index) (by omega)
  rw [uipHandlerOf, uipHandlerOf, load]

/-- The result of `uip_tx` for a frame of at least 14 bytes. -/
theorem Holds.outcome {frame : TxFrame} {vnetLen : Nat}
    {bytes : List UInt8} (holds : Holds frame vnetLen bytes)
    (long : vnetLen + 14 ≤ bytes.length) :
    outcome
        (toInt (frame.vnetLen + frame.ethLen),
          (uipHandlerOf frame.eth).map fun handler => (handler, frame)) =
      transmitted vnetLen bytes := by
  have whole : vnetLen + (bytes.length - vnetLen) = bytes.length := by omega
  have type :
      uipHandlerOf frame.eth =
        uipHandlerOf fun place => (bytes.drop vnetLen).getD place 0 := by
    apply uipHandlerOf_congr
    intro place small
    rw [← holds.body, List.getD_eq_getElem?_getD,
      peek_getElem? _ (by omega), Option.getD_some]
  rw [TxLayout.outcome, transmitted, holds.headerLen, holds.frameLen, whole,
    ← type, Option.map_map]
  dsimp only
  congr 1
  apply Option.map_congr
  intro handler _
  rw [Function.comp_apply, passed]
  dsimp only
  rw [holds.headerLen, holds.frameLen, holds.header, holds.body, List.length_drop]

/-! ## The three layouts -/

section Layouts

variable (chain : Chain)

theorem readMem_hostMem (base len : Nat) :
    readMem chain.hostMem base len = (peek chain.mem base len).map some := by
  simp [readMem, peek, Chain.hostMem]

theorem gather_hostMem :
    gather chain.hostMem (chain.iov.take chain.out) =
      (chainBytes chain).map some := by
  rw [gather, chainBytes, List.map_flatMap]
  congr 1
  funext entry
  exact readMem_hostMem chain entry.base entry.len

theorem bytes_length :
    (chainBytes chain).length = iovSize chain.iov chain.out := by
  rw [← gather_take_length chain.hostMem, gather_hostMem, List.length_map]

/-- A copy to the front of a block is what is read there. -/
theorem peek_mallocked {copy : IovCopy} {bytes : List UInt8}
    (copied : copy.buf = bytes.map some) :
    peek (mallocked chain copy) 0 bytes.length = bytes := by
  apply List.ext_getElem
  · exact peek_length _ _ _
  · intro index first second
    simp only [peek, mallocked, copied, List.getElem_map,
      List.getElem_range, Nat.zero_add, List.getD_eq_getElem?_getD,
      List.getElem?_map]
    simp [second]

theorem peek_split (memory : Nat → UInt8) (base first second : Nat) :
    peek memory base (first + second) =
      peek memory base first ++ peek memory (base + first) second := by
  simp only [peek, List.range_add, List.map_append, List.map_map]
  congr 1
  apply List.map_congr_left
  intro index _
  exact congrArg memory (Nat.add_assoc base first index).symm

theorem peek_shift (memory : Nat → UInt8) (base size : Nat) :
    peek (fun place => memory (base + place)) 0 size =
      peek memory base size := by
  simp [peek]

/-- Two buffers, the first of which is the header. -/
theorem chainBytes_two (two : chain.out = 2) :
    chainBytes chain =
      peek chain.mem (chain.iov.getD 0 default).base
          (chain.iov.getD 0 default).len ++
        peek chain.mem (chain.iov.getD 1 default).base
          (chain.iov.getD 1 default).len := by
  have within := chain.within
  rw [chainBytes]
  rw [two] at within ⊢
  match listed : chain.iov with
  | [] => simp [listed] at within
  | [_] => simp [listed] at within
  | first :: second :: rest => simp

theorem chainBytes_one (one : chain.out = 1) :
    chainBytes chain =
      peek chain.mem (chain.iov.getD 0 default).base
        (chain.iov.getD 0 default).len := by
  have within := chain.within
  rw [chainBytes]
  rw [one] at within ⊢
  match listed : chain.iov with
  | [] => simp [listed] at within
  | first :: rest => simp

/-- Header and frame, one behind the other, are the bytes of the chain. -/
theorem holds_of_split {frame : TxFrame} {bytes : List UInt8}
    (joined :
      peek frame.vnet 0 frame.vnetLen ++ peek frame.eth 0 frame.ethLen =
        bytes) :
    Holds frame frame.vnetLen bytes := by
  have rest :
      (peek frame.vnet 0 frame.vnetLen ++
            peek frame.eth 0 frame.ethLen).length - frame.vnetLen =
        frame.ethLen := by
    rw [List.length_append, peek_length, peek_length,
      Nat.add_sub_cancel_left]
  subst joined
  refine ⟨rfl, rest.symm, ?_, ?_⟩
  · rw [List.take_left' (peek_length _ _ _)]
  · rw [rest, List.drop_left' (peek_length _ _ _)]

/-- The two copies of the any-layout path take everything there is. -/
theorem copies_holds {vnetLen : Nat}
    (long : vnetLen < (chainBytes chain).length) :
    let vnet :=
      memcpyFromiovecSafe chain.hostMem chain.iov vnetLen chain.out
    let ethLen := iovSize vnet.iov vnet.count
    let eth := memcpyFromiovecSafe chain.hostMem vnet.iov ethLen vnet.count
    (vnet.remaining = 0 ∧ eth.remaining = 0) ∧
      Holds
        { vnet := mallocked chain vnet
          eth := mallocked chain eth
          vnetLen
          ethLen }
        vnetLen (chainBytes chain) := by
  have size := bytes_length chain
  have within := chain.within
  have header := memcpyFromiovecSafe_buf chain.hostMem chain.iov vnetLen
    chain.out
  have rest := memcpyFromiovecSafe_gather chain.hostMem chain.iov vnetLen
    chain.out 0 within
  have left := memcpyFromiovecSafe_remaining chain.hostMem chain.iov vnetLen
    chain.out within
  have lengths := memcpyFromiovecSafe_length chain.hostMem chain.iov vnetLen
    chain.out
  generalize
    memcpyFromiovecSafe chain.hostMem chain.iov vnetLen chain.out =
      vnet at header rest left lengths ⊢
  dsimp only
  rw [gather_hostMem, ← List.map_take] at header
  rw [Nat.add_zero, Nat.add_zero, gather_hostMem, ← List.map_drop,
    Nat.min_eq_left (by omega)] at rest
  have ethLen :
      iovSize vnet.iov vnet.count =
        ((chainBytes chain).drop vnetLen).length := by
    rw [← gather_take_length chain.hostMem, rest, List.length_map]
  have body := memcpyFromiovecSafe_buf chain.hostMem vnet.iov
    (iovSize vnet.iov vnet.count) vnet.count
  have nothing := memcpyFromiovecSafe_remaining chain.hostMem vnet.iov
    (iovSize vnet.iov vnet.count) vnet.count (by omega)
  generalize
    memcpyFromiovecSafe chain.hostMem vnet.iov
      (iovSize vnet.iov vnet.count) vnet.count = eth at body nothing ⊢
  rw [rest, ethLen, ← List.map_take, List.take_length] at body
  refine ⟨⟨by omega, by omega⟩, ?_⟩
  have exact : ((chainBytes chain).take vnetLen).length = vnetLen :=
    List.length_take_of_le (Nat.le_of_lt long)
  apply holds_of_split
  dsimp only
  have front := peek_mallocked chain header
  have back := peek_mallocked chain body
  rw [exact] at front
  rw [ethLen, front, back, List.take_append_drop]

/-- The frame taken out of a chain consists of the bytes of the chain. -/
theorem txFrame_holds {vnetLen : Nat}
    (long : vnetLen < (chainBytes chain).length)
    (allocates : chain.allocates = true) :
    ∃ frame,
      txFrame chain vnetLen = .ok frame ∧
        Holds frame vnetLen (chainBytes chain) := by
  have size := bytes_length chain
  rw [txFrame]
  dsimp only
  rw [if_neg (by omega)]
  split
  case isTrue legacy =>
    obtain ⟨exact, two⟩ := legacy
    refine ⟨_, rfl, holds_of_split ?_⟩
    dsimp only
    rw [peek_shift, peek_shift, chainBytes_two chain two, exact]
  case isFalse _ =>
    split
    case isTrue one =>
      have bytes := chainBytes_one chain one
      have whole :
          (chain.iov.getD 0 default).len =
            vnetLen + ((chain.iov.getD 0 default).len - vnetLen) := by
        rw [bytes, peek_length] at long
        omega
      refine ⟨_, rfl, holds_of_split ?_⟩
      dsimp only
      rw [peek_shift, peek_shift, ← peek_split, ← whole, bytes]
    case isFalse _ =>
      obtain ⟨⟨first, second⟩, holds⟩ := copies_holds chain long
      rw [if_neg (not_or.2 ⟨not_not.2 first, not_not.2 second⟩)]
      exact ⟨_, rfl, holds⟩

/--
What `uip_tx` returns and passes on is a function of the bytes of the chain.
-/
theorem uipTx_outcome {vnetLen : Nat}
    (long : vnetLen + 14 ≤ (chainBytes chain).length)
    (allocates : chain.allocates = true) :
    outcome (uipTx chain vnetLen) =
      transmitted vnetLen (chainBytes chain) := by
  obtain ⟨frame, taken, holds⟩ :=
    txFrame_holds chain (show vnetLen < _ by omega) allocates
  rw [uipTx, taken]
  exact holds.outcome long

end Layouts

/-! ## Main result -/

/--
Two chains with the same bytes, at least 14 of them behind the header, are
transmitted alike, whichever way `uip_tx` takes for each: it returns their
number and hands the header, the rest and their sizes to the handler that the
type of the frame names.
-/
theorem uipTx_layout_independent {first second : Chain} {vnetLen : Nat}
    (sameBytes : chainBytes first = chainBytes second)
    (long : vnetLen + 14 ≤ (chainBytes first).length)
    (firstAllocates : first.allocates = true)
    (secondAllocates : second.allocates = true) :
    outcome (uipTx first vnetLen) = transmitted vnetLen (chainBytes first) ∧
      outcome (uipTx second vnetLen) = outcome (uipTx first vnetLen) := by
  rw [uipTx_outcome first long firstAllocates,
    uipTx_outcome second (sameBytes ▸ long) secondAllocates, sameBytes]
  exact ⟨rfl, rfl⟩

/-- Buffers in a memory with the type of an ARP frame behind its place 22. -/
def exampleChain (iov : List Iovec) : Chain where
  iov
  out := iov.length
  mem place :=
    if place = 22 then 8 else if place = 23 then 6 else UInt8.ofNat place
  heap _ := 0
  allocates := true
  within := Nat.le_refl _

/--
A frame in two buffers, and in four, one of which is empty and one of which
ends in the header, goes to the handler for ARP.
-/
theorem uipTx_layout_independent_on_example :
    let whole := uipTx (exampleChain [⟨0, 10⟩, ⟨10, 14⟩]) 10
    let split :=
      uipTx (exampleChain [⟨0, 3⟩, ⟨7, 0⟩, ⟨3, 9⟩, ⟨12, 12⟩]) 10
    outcome whole = transmitted 10 (peek (exampleChain []).mem 0 24) ∧
      outcome split = outcome whole ∧ whole.1 = 24 ∧
        (outcome split).2.map Passed.handler = some .arp := by
  have both :=
    @uipTx_layout_independent (exampleChain [⟨0, 10⟩, ⟨10, 14⟩])
      (exampleChain [⟨0, 3⟩, ⟨7, 0⟩, ⟨3, 9⟩, ⟨12, 12⟩]) 10 (by decide)
      (by decide) rfl rfl
  exact ⟨both.1, both.2, by decide, by decide⟩

end Kemu.Net.TxLayout
