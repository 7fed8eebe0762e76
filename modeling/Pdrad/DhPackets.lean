import Pdrad.Chain
import Pdrad.DhOptions

/-!
# DHCPv6 packets (`dh_packets.h`, `dh_packets.c`)

The packet builder and the option parser, statement by statement. Packets and
options lie in a flat memory; pointers are addresses and `NULL` is `none`.

* `dhCreatePacket` is `none` where the `int` loop counter would overflow.
* `dhParseOptions` runs for at most `fuel` passes of its `while (true)` loop.
  Its state keeps the addresses touched. The list nodes it allocates live in a
  heap of their own, and `alloc k` says whether the `k`-th of them is granted.
-/

namespace Pdrad

/-! ## Packet header -/

/-- `enum dh_msgType`. -/
inductive DhMsgType where
  | solicit
  | advertise
  | request
  | confirm
  | renew
  | rebind
  | reply
  | release
  | decline
  | reconfigure
  | informationRequest
  | relayForw
  | relayRepl
deriving DecidableEq, Repr

def DhMsgType.code : DhMsgType → UInt8
  | .solicit => 1
  | .advertise => 2
  | .request => 3
  | .confirm => 4
  | .renew => 5
  | .rebind => 6
  | .reply => 7
  | .release => 8
  | .decline => 9
  | .reconfigure => 10
  | .informationRequest => 11
  | .relayForw => 12
  | .relayRepl => 13

structure DhPktTransactionId where
  transactionId0 : UInt8
  transactionId1 : UInt8
  transactionId2 : UInt8
deriving DecidableEq, Repr

def DhPktTransactionId.bytes (t : DhPktTransactionId) : List UInt8 :=
  [t.transactionId0, t.transactionId1, t.transactionId2]

/-- `dh_pkt_offset`: the message type and the transaction id. -/
def dhPktOffset : Nat := 4

/-! ## Building packets -/

/-- The size of the option `payload`, as both loops of `dh_createPacket` compute it. -/
def optionSize (m : Mem) (payload : Nat) : Nat :=
  (DhOptPayload.optionLength m payload).toNat + dhOptPayloadOffset

/-- `count packet length`. Fewer than `2 ^ 31` options of at most `2 ^ 16 + 3`
bytes do not overflow a `size_t`. -/
def countPacketLength (m : Mem) (optPtrList : List Nat) : Nat :=
  optPtrList.foldl (fun length payload => length + optionSize m payload) dhPktOffset

/-- `copy options`: one pass of the second loop. The option is copied behind the
earlier ones, and its header is swapped in the copy. -/
def copyOption (packet : Nat) (s : Mem × Nat) (payload : Nat) : Mem × Nat :=
  let (m, optionOffset) := s
  let buffer := packet + dhPktOffset + optionOffset
  let m := m.memcpy buffer payload (optionSize m payload)
  let optionOffset := optionOffset + optionSize m payload
  (DhOptPayload.swapHeader m buffer, optionOffset)

/-- `packet` is the block `malloc(length)` returns. The result is the memory and
the length of the packet. -/
def dhCreatePacket (m : Mem) (packet : Nat) (msgType : DhMsgType) (transId : DhPktTransactionId)
    (optPtrList : List Nat) : Option (Mem × Nat) :=
  if optPtrList.length < 2 ^ 31 then
    let length := countPacketLength m optPtrList
    let m := m.put packet [msgType.code]
    let m := m.put (packet + 1) transId.bytes
    some ((optPtrList.foldl (copyOption packet) (m, 0)).1, length)
  else none

/-- `(size_t) -1`. -/
def sizeMax : Nat := 2 ^ 64 - 1

/-- What a solicit builder leaves behind: the memory, `*pktPtr`, and the returned
`size_t`. -/
structure SolicitPacket where
  mem : Mem
  pktPtr : Option Nat
  length : Nat

/-- `options` are the variadic arguments; `transId` is the drawn transaction id,
`none` when `timespec_get` fails. -/
def dhCreateCustomizedSolicitPacket (m : Mem) (packet : Nat) (pktPtr : Option Nat)
    (clientId elapsedTime iaPd : Option Nat) (options : List Nat)
    (transId : Option DhPktTransactionId) : Option SolicitPacket :=
  match clientId, elapsedTime, iaPd, transId with
  | some clientId, some elapsedTime, some iaPd, some transId =>
    (dhCreatePacket m packet .solicit transId (clientId :: elapsedTime :: iaPd :: options)).map
      fun (m, length) => ⟨m, some packet, length⟩
  | _, _, _, _ => some ⟨m, pktPtr, sizeMax⟩

/-! ## Parsing options -/

/-- `dh_parsedOptions`. `elapsedTime` is never filled in. -/
structure DhParsedOptions where
  success : Bool
  clientIdentifier : Option Nat
  serverIdentifier : Option Nat
  iaPdList : Option Nat
  elapsedTime : Option Nat
deriving DecidableEq, Repr

/-- The variables of `dh_parseOptions`, the memory with the addresses touched,
the list nodes, and how many of them have been asked for. -/
structure ReaderState where
  mem : Tracked
  readerPtr : Nat
  unreadDataLength : Nat
  result : DhParsedOptions
  heap : Heap Nat
  allocs : Nat

/-- `option->OptionCode = be16toh(option->OptionCode)` and the same for
`OptionLength`; then both fields are read. -/
def decodeHeader (t : Tracked) (option : Nat) : UInt16 × UInt16 × Tracked :=
  let (code, t) := t.read16 option
  let t := t.write16 option (be16toh code)
  let (length, t) := t.read16 (option + 2)
  let t := t.write16 (option + 2) (be16toh length)
  let (length, t) := t.read16 (option + 2)
  let (code, t) := t.read16 option
  (code, length, t)

/-- `case DHCPv6_OPTION_IA_PD`. It does not come back if the walk to the end of
the list does not. -/
def appendIAPD (alloc : Nat → Bool) (option : Nat) (s : ReaderState) : Option ReaderState :=
  let granted := alloc s.allocs
  let s := { s with result := { s.result with success := false }, allocs := s.allocs + 1 }
  if granted then
    (Chain.append s.heap s.result.iaPdList option).map fun (heap, list) =>
      { s with heap := heap, result := { s.result with iaPdList := list } }
  else some s

/-- `switch (option->OptionCode)`. -/
def dispatch (alloc : Nat → Bool) (code : UInt16) (option : Nat) (s : ReaderState) :
    Option ReaderState :=
  if code = DhOptions.clientId.code then
    some { s with result := { s.result with clientIdentifier := some option } }
  else if code = DhOptions.serverId.code then
    some { s with result := { s.result with serverIdentifier := some option } }
  else if code = DhOptions.iaPd.code then appendIAPD alloc option s
  else some s

/-- What follows the switch: count the option, and move the reader behind it
unless nothing is left or it would pass the end of the packet. -/
def moveOn (pkt size optPayloadLength : Nat) (s : ReaderState) : Flow ReaderState :=
  let s := { s with unreadDataLength := sizeSub s.unreadDataLength optPayloadLength }
  if s.unreadDataLength ≤ 0 then .stop s
  else
    let s := { s with readerPtr := sizeAdd s.readerPtr optPayloadLength }
    -- the bounds check: the option it is about has been read and recorded
    if s.readerPtr > sizeAdd pkt size then .stop s else .again s

/-- One pass of the `while (true)` loop. -/
def parseOption (alloc : Nat → Bool) (pkt size : Nat) (s : ReaderState) :
    Option (Flow ReaderState) :=
  let option := s.readerPtr
  let (code, length, t) := decodeHeader s.mem option
  (dispatch alloc code option { s with mem := t }).map
    (moveOn pkt size (length.toNat + dhOptPayloadOffset))

/-- The variables before anything is read. -/
def readerInit (m : Mem) (pkt size : Nat) : ReaderState where
  mem := ⟨m, []⟩
  readerPtr := sizeAdd pkt dhPktOffset
  unreadDataLength := sizeSub size dhPktOffset
  result := ⟨false, none, none, none, none⟩
  heap := []
  allocs := 0

/-- `dh_parseOptions(pkt, size)`; the parsed options are the `result` of the final state. -/
def dhParseOptions (alloc : Nat → Bool) (m : Mem) (pkt size fuel : Nat) : Option ReaderState :=
  let s := readerInit m pkt size
  if s.unreadDataLength ≤ 0 ∨ s.readerPtr = 0 then some s
  else
    let (msgType, t) := s.mem.read8 pkt
    let s := { s with mem := t }
    if msgType ≠ DhMsgType.advertise.code ∧ msgType ≠ DhMsgType.reply.code then some s
    else
      (loop (parseOption alloc pkt size) fuel s).map fun s =>
        { s with result := { s.result with success := true } }

/-- The options on the list `IA_PDList`, in list order. -/
def ReaderState.iaPds (s : ReaderState) : List Nat :=
  Chain.toList s.heap s.result.iaPdList

end Pdrad
