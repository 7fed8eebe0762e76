import Pdrad.Daemon
import Pdrad.RouterSolicit
import Pdrad.SharedMemory
import Pdrad.Utils

/-!
# The process (`test.c`)

All threads of the process with their steps, in any order: `main` from `utils_Init` on,
the signal handler, the DHCP thread, and the two threads that advertise. A thread works
on `_prefix` a field at a time, and only `_prefixMutex` keeps the others from seeing it
in between. `main` does not lock it to wait for a prefix length.

1. `MainStep`, `DhcpStep`, `AdvStep`: the steps of each thread.
2. `Process.Step`: the steps of the process.
-/

namespace Pdrad

/-! ## The threads -/

/-- The threads that lock `_prefixMutex`. -/
inductive Worker where
  | requestDhcpPrefix
  | adv (th : AdvThread)
deriving DecidableEq

/-- What `main` is about to do. -/
inductive MainAt where
  | init
  | register
  | createDhcp
  | waitPrefix
  | createRa
  | createRs
  | watch
  | returned
deriving DecidableEq

inductive PrefixField where
  | preferredLifetime
  | validLifetime
  | prefixLength
  | prefixAddr
deriving DecidableEq

/-- `_prefix` and its copies. -/
def prefixFields : Fields PrefixField DhOptIAPrefix where
  type
    | .preferredLifetime | .validLifetime => UInt32
    | .prefixLength => UInt8
    | .prefixAddr => In6Addr
  get
    | .preferredLifetime, p => p.preferredLifetime
    | .validLifetime, p => p.validLifetime
    | .prefixLength, p => p.prefixLength
    | .prefixAddr, p => p.prefixAddr
  copy
    | .preferredLifetime, src, dst => { dst with preferredLifetime := src.preferredLifetime }
    | .validLifetime, src, dst => { dst with validLifetime := src.validLifetime }
    | .prefixLength, src, dst => { dst with prefixLength := src.prefixLength }
    | .prefixAddr, src, dst => { dst with prefixAddr := src.prefixAddr }
  get_copy f src dst := by cases f <;> rfl
  get_copy_of_ne {f g} src dst hg := by
    cases f <;> cases g <;> first | rfl | exact absurd rfl hg
  ext {p q} h := by
    obtain ⟨preferred, valid, length, addr⟩ := p
    obtain ⟨preferred', valid', length', addr'⟩ := q
    obtain rfl : preferred = preferred' := h .preferredLifetime
    obtain rfl : valid = valid' := h .validLifetime
    obtain rfl : length = length' := h .prefixLength
    obtain rfl : addr = addr' := h .prefixAddr
    rfl

def allPrefixFields : List PrefixField :=
  [.preferredLifetime, .validLifetime, .prefixLength, .prefixAddr]

/-- How far `Thread_requestDhcpPrefix` has come. The mutex is locked from `calling` on.
`reply` is what the request has copied, or is copying, to `_prefix`, if it has worked. -/
inductive DhcpAt where
  | absent
  | setUp
  | loopTop
  | locking
  | calling
  | copying (reply : DhOptIAPrefix) (todo : List PrefixField)
  | convertPreferred (reply : Option DhOptIAPrefix)
  | convertValid (reply : Option DhOptIAPrefix)
  | setLength (reply : Option DhOptIAPrefix)
  | unlocking
  | ended

/-- The addresses of an advertisement that is about to be sent. -/
structure AdvAddrs where
  srcAddr : In6Addr
  dstAddr : In6Addr
  hardwareAddr : List UInt8
  size : hardwareAddr.length = macAddressLength

/-- How far an advertising thread has come. It has the mutex while it is `reading` the
arguments of `sendRouterAdv` from `_prefix`, those of `todo` being still to read, and
until it is no more `unlocking`. Only `Thread_listenRouterSolicit` is ever `receiving`. -/
inductive AdvAt where
  | absent
  | setUp
  | loopTop
  | link
  | receiving (srcAddr : In6Addr)
  | hardware (srcAddr dstAddr : In6Addr)
  | locking (a : AdvAddrs)
  | reading (a : AdvAddrs) (p : DhOptIAPrefix) (todo : List PrefixField)
  | unlocking
  | ended

def DhcpAt.Inside : DhcpAt → Prop
  | .calling | .copying _ _ | .convertPreferred _ | .convertValid _ | .setLength _
  | .unlocking => True
  | _ => False

def AdvAt.Inside : AdvAt → Prop
  | .reading _ _ _ | .unlocking => True
  | _ => False

/-! ## The process -/

/-- The globals, and how far the threads have come. `sent` is what `sendmsg` was given,
`exited` once the process has ended. -/
structure Process where
  sharedPrefix : DhOptIAPrefix
  mutex : Option Worker
  utils : Utils
  cancelDhcp : Bool
  cancel : AdvThread → Bool
  main : MainAt
  dhcp : DhcpAt
  adv : AdvThread → AdvAt
  sent : List (List UInt8)
  exited : Bool

/-- What all variables start with that are not set to anything. -/
def blankPrefix : DhOptIAPrefix := ⟨0, 0, 0, In6Addr.zero⟩

namespace Process

/-- Behind the arguments, which have set `_prefix`. -/
def init (sharedPrefix : DhOptIAPrefix) : Process where
  sharedPrefix := sharedPrefix
  mutex := none
  utils := Utils.init
  cancelDhcp := false
  cancel := fun _ => false
  main := .init
  dhcp := .absent
  adv := fun _ => .absent
  sent := []
  exited := false

/-- An advertising thread comes to `at'`. -/
def goto (s : Process) (th : AdvThread) (pc : AdvAt) : Process :=
  { s with adv := Function.update s.adv th pc }

end Process

inductive MainEvent where
  | init (env : InitEnv)
  | register
  | createDhcp
  | seePrefix
  | createRa
  | createRs
  | returns

inductive DhcpEvent where
  | setUp
  | socketFails
  | setUpFails
  | enter
  | leave
  | lock
  | call (ret : Option Int)
  | copy (f : PrefixField)
  | copied
  | convertPreferred
  | convertValid
  | setLength (reply : Option DhOptIAPrefix)
  | unlock

inductive AdvEvent where
  | setUp
  | setUpFails
  | exits
  | enter
  | leave
  | getLinkLocalAddress (connect : Except Errno Unit) (getsockname : Except Errno In6Addr)
  | receive (clientAddr : In6Addr)
  | getHardwareAddressByName (ioctl : Except Errno (List UInt8))
  | dies (ioctl : Except Errno (List UInt8))
  | lock
  | read (f : PrefixField)
  | send (dstAddr : In6Addr) (pkt : List UInt8)
  | unlock

inductive ProcessEvent where
  | main (e : MainEvent)
  | signal (close : Except Errno Unit)
  | dhcp (e : DhcpEvent)
  | adv (th : AdvThread) (e : AdvEvent)

/-! ## The steps -/

/-- `main` does not look at what `utils_Init` returns. -/
inductive MainStep (useDhcp : Bool) (s : Process) : MainEvent → Process → Prop where
  | init (env : InitEnv) : s.main = .init →
      MainStep useDhcp s (.init env) { s with
        utils := (utilsInit env s.utils).utils
        main := .register }
  | register : s.main = .register →
      MainStep useDhcp s .register { s with main := if useDhcp then .createDhcp else .createRa }
  | createDhcp : s.main = .createDhcp →
      MainStep useDhcp s .createDhcp { s with main := .waitPrefix, dhcp := .setUp }
  | seePrefix : s.main = .waitPrefix → s.sharedPrefix.prefixLength ≠ 0 →
      MainStep useDhcp s .seePrefix { s with main := .createRa }
  | createRa : s.main = .createRa →
      MainStep useDhcp s .createRa { s.goto .sendRouterAdv .setUp with main := .createRs }
  | createRs : s.main = .createRs →
      MainStep useDhcp s .createRs { s.goto .listenRouterSolicit .setUp with main := .watch }
  | returns : s.main = .watch →
      s.cancel .sendRouterAdv = true ∨ s.cancel .listenRouterSolicit = true →
      MainStep useDhcp s .returns { s with main := .returned, exited := true }

/-- What follows a call of `requestAndReceiveDhcp`. `*prefixResultPtr` is `_prefix`. -/
def Process.afterCall (s : Process) (c : DhcpCall) : Process :=
  match c.ret with
  | none => { s with exited := true }
  | some 0 => { s with dhcp := .copying c.prefixResult allPrefixFields }
  | some _ => { s with dhcp := .convertPreferred none }

/-- Only when there is no socket does the thread set its flag. -/
inductive DhcpStep (s : Process) : DhcpEvent → Process → Prop where
  | setUp : s.dhcp = .setUp → DhcpStep s .setUp { s with dhcp := .loopTop }
  | socketFails : s.dhcp = .setUp →
      DhcpStep s .socketFails { s with dhcp := .ended, cancelDhcp := true }
  | setUpFails : s.dhcp = .setUp → DhcpStep s .setUpFails { s with dhcp := .ended }
  | enter : s.dhcp = .loopTop → s.cancelDhcp = false →
      DhcpStep s .enter { s with dhcp := .locking }
  | leave : s.dhcp = .loopTop → s.cancelDhcp = true → DhcpStep s .leave { s with dhcp := .ended }
  | lock : s.dhcp = .locking → s.mutex = none →
      DhcpStep s .lock { s with dhcp := .calling, mutex := some .requestDhcpPrefix }
  | call (env : DhcpEnv) (handler : Nat) (m : Mem) (buffer bufferLength : Nat) (c : DhcpCall) :
      s.dhcp = .calling → BufferAt buffer bufferLength →
      Returns (requestAndReceiveDhcp env handler m buffer bufferLength s.sharedPrefix) c →
      DhcpStep s (.call c.ret) (s.afterCall c)
  | copy (f : PrefixField) (reply : DhOptIAPrefix) (todo : List PrefixField) :
      s.dhcp = .copying reply todo → f ∈ todo →
      DhcpStep s (.copy f) { s with
        sharedPrefix := prefixFields.copy f reply s.sharedPrefix
        dhcp := .copying reply (Fields.without f todo) }
  | copied (reply : DhOptIAPrefix) : s.dhcp = .copying reply [] →
      DhcpStep s .copied { s with dhcp := .convertPreferred (some reply) }
  | convertPreferred (reply : Option DhOptIAPrefix) : s.dhcp = .convertPreferred reply →
      DhcpStep s .convertPreferred { s with
        sharedPrefix.preferredLifetime := be32toh s.sharedPrefix.preferredLifetime
        dhcp := .convertValid reply }
  | convertValid (reply : Option DhOptIAPrefix) : s.dhcp = .convertValid reply →
      DhcpStep s .convertValid { s with
        sharedPrefix.validLifetime := be32toh s.sharedPrefix.validLifetime
        dhcp := .setLength reply }
  | setLength (reply : Option DhOptIAPrefix) : s.dhcp = .setLength reply →
      DhcpStep s (.setLength reply) { s with
        sharedPrefix.prefixLength := 64
        dhcp := .unlocking }
  | unlock : s.dhcp = .unlocking → DhcpStep s .unlock { s with dhcp := .loopTop, mutex := none }

/-- The flags after the set-up of a thread has failed: only `Thread_sendRouterAdv`
sets its own. -/
def Process.cancelAfterFailure (s : Process) : AdvThread → AdvThread → Bool
  | .sendRouterAdv => Function.update s.cancel .sendRouterAdv true
  | .listenRouterSolicit => s.cancel

/-- `Thread_sendRouterAdv` sends to all nodes; the other thread waits for someone to
answer. -/
def afterLink (srcAddr : In6Addr) : AdvThread → AdvAt
  | .sendRouterAdv => .hardware srcAddr addrAllNodesMulticast
  | .listenRouterSolicit => .receiving srcAddr

/-- The first six bytes of the array of zeros that a hardware address is copied to. -/
def hardwareBytes (written : Option (List UInt8)) : List UInt8 :=
  (written.getD [] ++ List.replicate macAddressLength 0).take macAddressLength

theorem length_hardwareBytes (written : Option (List UInt8)) :
    (hardwareBytes written).length = macAddressLength := by
  rw [hardwareBytes, List.length_take, List.length_append, List.length_replicate]
  exact Nat.min_eq_left (Nat.le_add_left _ _)

/-- The prefix is read before the other arguments, which are read in any order. What the
thread finds in memory besides `_prefix` is up to the step. -/
inductive AdvStep (th : AdvThread) (s : Process) : AdvEvent → Process → Prop where
  | setUp : s.adv th = .setUp → AdvStep th s .setUp (s.goto th .loopTop)
  | setUpFails : s.adv th = .setUp →
      AdvStep th s .setUpFails { s.goto th .ended with cancel := s.cancelAfterFailure th }
  | exits : s.adv th = .setUp → th = .listenRouterSolicit →
      AdvStep th s .exits { s with exited := true }
  | enter : s.adv th = .loopTop → s.cancel th = false → AdvStep th s .enter (s.goto th .link)
  | leave : s.adv th = .loopTop → s.cancel th = true → AdvStep th s .leave (s.goto th .ended)
  | getLinkLocalAddress (connect : Except Errno Unit) (getsockname : Except Errno In6Addr) :
      s.adv th = .link →
      AdvStep th s (.getLinkLocalAddress connect getsockname)
        { s.goto th (afterLink ((utilsGetLinkLocalAddress connect getsockname s.utils).written.getD
            In6Addr.zero) th) with
          utils := (utilsGetLinkLocalAddress connect getsockname s.utils).utils }
  | receive (m : Mem) (recBuf : Nat) (rs rest : List (Option Datagram))
      (srcAddr clientAddr : In6Addr) : s.adv th = .receiving srcAddr →
      receiveSrcAddrFromRouterSolicit m recBuf rs = some (clientAddr, rest) →
      AdvStep th s (.receive clientAddr) (s.goto th (.hardware srcAddr clientAddr))
  | getHardwareAddressByName (ioctl : Except Errno (List UInt8)) (srcAddr dstAddr : In6Addr)
      (call : UtilsCall (List UInt8)) : s.adv th = .hardware srcAddr dstAddr →
      utilsGetHardwareAddressByName ioctl s.utils = some call →
      AdvStep th s (.getHardwareAddressByName ioctl)
        { s.goto th (.locking ⟨srcAddr, dstAddr, hardwareBytes call.written,
            length_hardwareBytes call.written⟩) with
          utils := call.utils }
  | dies (ioctl : Except Errno (List UInt8)) (srcAddr dstAddr : In6Addr) :
      s.adv th = .hardware srcAddr dstAddr → utilsGetHardwareAddressByName ioctl s.utils = none →
      AdvStep th s (.dies ioctl) { s with exited := true }
  | lock (a : AdvAddrs) : s.adv th = .locking a → s.mutex = none →
      AdvStep th s .lock { s.goto th (.reading a blankPrefix allPrefixFields) with
        mutex := some (.adv th) }
  | read (f : PrefixField) (a : AdvAddrs) (p : DhOptIAPrefix) (todo : List PrefixField) :
      s.adv th = .reading a p todo → f ∈ todo → (.prefixAddr ∈ todo → f = .prefixAddr) →
      AdvStep th s (.read f) (s.goto th
        (.reading a (prefixFields.copy f s.sharedPrefix p) (Fields.without f todo)))
  | send (b : RouterAdvBlocks) (m : Mem) (a : AdvAddrs) (p : DhOptIAPrefix) (pkt : List UInt8) :
      s.adv th = .reading a p [] → m.slice b.macAddr 6 = a.hardwareAddr →
      advertisePrefix b m a.srcAddr a.dstAddr p = some pkt →
      AdvStep th s (.send a.dstAddr pkt) { s.goto th .unlocking with sent := s.sent ++ [pkt] }
  | unlock : s.adv th = .unlocking →
      AdvStep th s .unlock { s.goto th .loopTop with mutex := none }

/-- The signal handler is registered. -/
def MainAt.Handled : MainAt → Prop
  | .init | .register | .returned => False
  | _ => True

/-- The steps of the process, until it is over. `handle` runs between two of the others. -/
inductive Process.Step (useDhcp : Bool) (s : Process) : ProcessEvent → Process → Prop where
  | main {e : MainEvent} {t : Process} : s.exited = false → MainStep useDhcp s e t →
      Step useDhcp s (.main e) t
  | signal (close : Except Errno Unit) : s.exited = false → s.main.Handled →
      Step useDhcp s (.signal close) { s with
        cancel := fun _ => true
        cancelDhcp := true
        utils := (utilsDispose close s.utils).utils }
  | dhcp {e : DhcpEvent} {t : Process} : s.exited = false → DhcpStep s e t →
      Step useDhcp s (.dhcp e) t
  | adv {e : AdvEvent} {t : Process} (th : AdvThread) : s.exited = false → AdvStep th s e t →
      Step useDhcp s (.adv th e) t

end Pdrad
