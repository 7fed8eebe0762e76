import Pdrad.CStrings
import Pdrad.Delegation

/-!
# The command line (`main` in `test.c`)

`main` is started with `d`, a LAN and a WAN interface, or with `s`, a LAN interface, a
prefix and its length. It tells the two apart by the first character, and counts the
arguments only up to three.

1. `mainArguments_short`, `mainArguments_pair`, `mainArguments_long`: what it does with
   up to one, with two, and with more arguments, its own name being the first.
2. `exactArguments_iff`: just the documented arguments are taken, and taken as they are
   meant, exactly when no mode is named without what belongs to it. With `x` alone,
   `argv[2]` is followed, which is `NULL`; with `s`, what `inet_pton` returns is not
   looked at, and neither is the size of the length.
-/

namespace Pdrad

/-! ## Handling the arguments -/

/-- `main` returns, or goes on with the interfaces it has been given. -/
inductive ArgsEnd where
  | returned (ret : Int)
  | wentOn (useDhcp : Bool) (lanIfName wanIfName : Option CString)

/-- How the arguments are handled, and `_prefix` behind that. -/
structure MainArgs where
  ending : ArgsEnd
  sharedPrefix : DhOptIAPrefix

/-- `*argv[i]`; `none` where `argv[i]` is `NULL`, as `argv[argc]` is. -/
def firstChar (argv : List CString) (i : Nat) : Option UInt8 :=
  argv[i]?.map CString.first

/-- `argc >= 3 || (*argv[1] != 'd' && *argv[2] != 's')`. -/
def enoughArguments (argv : List CString) : Option Bool :=
  if 3 ≤ argv.length then some true
  else
    (firstChar argv 1).bind fun c =>
      if c = 'd'.toUInt8 then some false else (firstChar argv 2).map fun c => c != 's'.toUInt8

/-- `_prefix` in static mode. An address that `inet_pton` refuses stays zero. -/
def readStaticPrefix (inetPton : CString → Option In6Addr) (argv : List CString) :
    Option DhOptIAPrefix :=
  argv[3]?.bind fun addr =>
    argv[4]?.map fun length =>
      staticPrefix ((inetPton addr).getD In6Addr.zero) (UInt8.ofInt (atoi length))

/-- `main` up to `utils_Init`. The result is `none` where `NULL` is followed. -/
def mainArguments (inetPton : CString → Option In6Addr) (argv : List CString)
    (sharedPrefix : DhOptIAPrefix) : Option MainArgs :=
  if argv.length ≤ 1 then some ⟨.returned (-1), sharedPrefix⟩
  else
    (enoughArguments argv).bind fun enough =>
      if enough then
        (firstChar argv 1).bind fun mode =>
          if mode = 'd'.toUInt8 then some ⟨.wentOn true argv[2]? argv[3]?, sharedPrefix⟩
          else if mode = 's'.toUInt8 then
            (readStaticPrefix inetPton argv).map fun sharedPrefix =>
              ⟨.wentOn false argv[2]? none, sharedPrefix⟩
          else some ⟨.returned (-1), sharedPrefix⟩
      else some ⟨.returned (-1), sharedPrefix⟩

/-! ## What ought to be taken -/

/-- `d <lan interface name> <wan interface name>`. -/
structure DhcpArguments (argv : List CString) : Prop where
  mode : firstChar argv 1 = some 'd'.toUInt8
  lan : ∃ name, argv[2]? = some name
  wan : ∃ name, argv[3]? = some name

/-- `s <lan interface name> <prefix> <prefix length>`. -/
structure StaticArguments (inetPton : CString → Option In6Addr) (argv : List CString)
    (addr : In6Addr) (length : Nat) : Prop where
  mode : firstChar argv 1 = some 's'.toUInt8
  lan : ∃ name, argv[2]? = some name
  address : ∃ text, argv[3]? = some text ∧ inetPton text = some addr
  numeral : ∃ text, argv[4]? = some text ∧ text.IsDecimal length
  range : length ≤ 128

/-- No `NULL` is followed. `main` goes on with documented arguments only, in static mode
with the prefix they say; it returns -1 for all others, and leaves `_prefix` alone. -/
def ExactArguments (inetPton : CString → Option In6Addr) (argv : List CString)
    (sharedPrefix : DhOptIAPrefix) : Prop :=
  ∃ r, mainArguments inetPton argv sharedPrefix = some r ∧
    match r.ending with
    | .wentOn _ _ _ => DhcpArguments argv ∨ ∃ addr length,
        StaticArguments inetPton argv addr length ∧ r.sharedPrefix.prefixAddr = addr ∧
          r.sharedPrefix.prefixLength.toNat = length
    | .returned ret => ret = -1 ∧ r.sharedPrefix = sharedPrefix ∧ ¬ DhcpArguments argv ∧
        ∀ addr length, ¬ StaticArguments inetPton argv addr length

/-- No mode is named without what belongs to it. A single argument is `d...`. -/
structure CompleteArguments (inetPton : CString → Option In6Addr) (argv : List CString) : Prop where
  single : argv.length = 2 → firstChar argv 1 = some 'd'.toUInt8
  dhcp : 3 ≤ argv.length → firstChar argv 1 = some 'd'.toUInt8 → 4 ≤ argv.length
  static : 3 ≤ argv.length → firstChar argv 1 = some 's'.toUInt8 →
    ∃ addr length, StaticArguments inetPton argv addr length

section

variable (inetPton : CString → Option In6Addr) (sharedPrefix : DhOptIAPrefix)

theorem mainArguments_short {argv : List CString} (h : argv.length ≤ 1) :
    mainArguments inetPton argv sharedPrefix = some ⟨.returned (-1), sharedPrefix⟩ :=
  if_pos h

theorem mainArguments_pair (name arg : CString) :
    mainArguments inetPton [name, arg] sharedPrefix =
      if arg.first = 'd'.toUInt8 then some ⟨.returned (-1), sharedPrefix⟩ else none := by
  have henough : enoughArguments [name, arg] =
      if arg.first = 'd'.toUInt8 then some false else none := rfl
  rw [mainArguments, if_neg (by simp), henough]
  split <;> rfl

theorem mainArguments_long (name mode lan : CString) (rest : List CString) :
    mainArguments inetPton (name :: mode :: lan :: rest) sharedPrefix =
      if mode.first = 'd'.toUInt8 then some ⟨.wentOn true (some lan) rest[0]?, sharedPrefix⟩
      else if mode.first = 's'.toUInt8 then
        (readStaticPrefix inetPton (name :: mode :: lan :: rest)).map fun sharedPrefix =>
          ⟨.wentOn false (some lan) none, sharedPrefix⟩
      else some ⟨.returned (-1), sharedPrefix⟩ := by
  have hlong : 3 ≤ (name :: mode :: lan :: rest).length := by simp
  have henough : enoughArguments (name :: mode :: lan :: rest) = some true := if_pos hlong
  rw [mainArguments, if_neg (by omega), henough]
  rfl

end

/-! ## When it is -/

namespace ArgumentsLemmas

variable {inetPton : CString → Option In6Addr} {sharedPrefix : DhOptIAPrefix}
  {argv : List CString}

theorem four_le_of_dhcp (h : DhcpArguments argv) : 4 ≤ argv.length := by
  obtain ⟨_, hwan⟩ := h.wan
  exact (List.getElem?_eq_some_iff.mp hwan).1

theorem five_le_of_static {addr : In6Addr} {length : Nat}
    (h : StaticArguments inetPton argv addr length) : 5 ≤ argv.length := by
  obtain ⟨_, htext, _⟩ := h.numeral
  exact (List.getElem?_eq_some_iff.mp htext).1

/-- The first character is that of one mode at most. -/
theorem not_static_of_dhcp (h : firstChar argv 1 = some 'd'.toUInt8) (addr : In6Addr)
    (length : Nat) : ¬ StaticArguments inetPton argv addr length := by
  intro hstatic
  exact absurd (h.symm.trans hstatic.mode) (by decide)

theorem not_dhcp_of_static (h : firstChar argv 1 = some 's'.toUInt8) : ¬ DhcpArguments argv := by
  intro hdhcp
  exact absurd (h.symm.trans hdhcp.mode) (by decide)

/-- A length that is in range is stored as it is. -/
theorem toNat_ofInt_of_le {n : Nat} (h : n ≤ 128) : (UInt8.ofInt n).toNat = n := by
  have hcast : ((n : Int) % 2 ^ 8).toNat = n := by omega
  rw [UInt8.ofInt, hcast, UInt8.toNat_ofNat']
  exact Nat.mod_eq_of_lt (by omega)

/-- The documented static arguments are read as they are meant. -/
theorem readStaticPrefix_eq {addr : In6Addr} {length : Nat}
    (h : StaticArguments inetPton argv addr length) :
    ∃ length', readStaticPrefix inetPton argv = some (staticPrefix addr length') ∧
      length'.toNat = length := by
  obtain ⟨text, htext, haddr⟩ := h.address
  obtain ⟨numeral, hnumeral, hdecimal⟩ := h.numeral
  have hrange := h.range
  have hatoi : atoi numeral = length := atoi_of_isDecimal hdecimal (by omega)
  refine ⟨UInt8.ofInt (atoi numeral), ?_, ?_⟩
  · rw [readStaticPrefix, htext, hnumeral, Option.bind_some, Option.map_some, haddr, Option.getD_some]
  · rw [hatoi, toNat_ofInt_of_le hrange]

theorem exact_iff_of_returned
    (h : mainArguments inetPton argv sharedPrefix = some ⟨.returned (-1), sharedPrefix⟩) :
    ExactArguments inetPton argv sharedPrefix ↔
      ¬ DhcpArguments argv ∧ ∀ addr length, ¬ StaticArguments inetPton argv addr length := by
  simp only [ExactArguments, h, Option.some.injEq, exists_eq_left', true_and]

theorem exact_iff_of_wentOn {useDhcp : Bool} {lan wan : Option CString} {q : DhOptIAPrefix}
    (h : mainArguments inetPton argv sharedPrefix = some ⟨.wentOn useDhcp lan wan, q⟩) :
    ExactArguments inetPton argv sharedPrefix ↔ DhcpArguments argv ∨ ∃ addr length,
      StaticArguments inetPton argv addr length ∧ q.prefixAddr = addr ∧
        q.prefixLength.toNat = length := by
  simp only [ExactArguments, h, Option.some.injEq, exists_eq_left']

/-- Up to one argument: `main` returns, and rightly so. -/
theorem exact_of_few (h : argv.length ≤ 2)
    (hend : mainArguments inetPton argv sharedPrefix = some ⟨.returned (-1), sharedPrefix⟩) :
    ExactArguments inetPton argv sharedPrefix := by
  refine (exact_iff_of_returned hend).mpr ⟨fun hdhcp => ?_, fun addr length hstatic => ?_⟩
  · have hfour := four_le_of_dhcp hdhcp
    omega
  · have hfive := five_le_of_static hstatic
    omega

theorem exact_pair_iff (inetPton : CString → Option In6Addr) (sharedPrefix : DhOptIAPrefix)
    (name arg : CString) :
    ExactArguments inetPton [name, arg] sharedPrefix ↔ CompleteArguments inetPton [name, arg] := by
  have hmain := mainArguments_pair inetPton sharedPrefix name arg
  by_cases hmode : arg.first = 'd'.toUInt8
  · rw [if_pos hmode] at hmain
    refine iff_of_true (exact_of_few (Nat.le_refl 2) hmain)
      ⟨fun _ => congrArg some hmode, fun hthree => ?_, fun hthree => ?_⟩
    · exact absurd hthree (by simp)
    · exact absurd hthree (by simp)
  · rw [if_neg hmode] at hmain
    refine iff_of_false ?_ fun h => hmode (Option.some.inj (h.single rfl))
    rintro ⟨r, hr, _⟩
    rw [hmain] at hr
    cases hr

/-! ### The modes -/

/-- `d` with a LAN interface goes on, whether there is a WAN interface or not. -/
theorem exact_dhcp_iff {wan : Option CString} (hlong : 3 ≤ argv.length)
    (hmode : firstChar argv 1 = some 'd'.toUInt8)
    (hmain : mainArguments inetPton argv sharedPrefix =
      some ⟨.wentOn true argv[2]? wan, sharedPrefix⟩) :
    ExactArguments inetPton argv sharedPrefix ↔ CompleteArguments inetPton argv := by
  rw [exact_iff_of_wentOn hmain]
  constructor
  · rintro (hdhcp | ⟨addr, length, hstatic, _⟩)
    · refine ⟨fun _ => hmode, fun _ _ => four_le_of_dhcp hdhcp, fun _ hs => ?_⟩
      exact absurd hdhcp (not_dhcp_of_static hs)
    · exact absurd hstatic (not_static_of_dhcp hmode addr length)
  · intro h
    have hfour := h.dhcp hlong hmode
    exact .inl ⟨hmode, ⟨_, List.getElem?_eq_getElem hlong⟩, ⟨_, List.getElem?_eq_getElem hfour⟩⟩

/-- `s` goes on unless `NULL` is followed for the prefix or its length. -/
theorem exact_static_iff (hlong : 3 ≤ argv.length) (hmode : firstChar argv 1 = some 's'.toUInt8)
    (hmain : mainArguments inetPton argv sharedPrefix = (readStaticPrefix inetPton argv).map
      fun sharedPrefix => ⟨.wentOn false argv[2]? none, sharedPrefix⟩) :
    ExactArguments inetPton argv sharedPrefix ↔ CompleteArguments inetPton argv := by
  constructor
  · intro hexact
    refine ⟨fun htwo => ?_, fun _ hd => ?_, fun _ _ => ?_⟩
    · omega
    · exact absurd (hmode.symm.trans hd) (by decide)
    · cases hread : readStaticPrefix inetPton argv with
      | none =>
        obtain ⟨r, hr, _⟩ := hexact
        rw [hmain, hread] at hr
        cases hr
      | some q =>
        rw [hread, Option.map_some] at hmain
        rcases (exact_iff_of_wentOn hmain).mp hexact with hdhcp | ⟨addr, length, hstatic, _⟩
        · exact absurd hdhcp (not_dhcp_of_static hmode)
        · exact ⟨addr, length, hstatic⟩
  · intro h
    obtain ⟨addr, length, hstatic⟩ := h.static hlong hmode
    obtain ⟨length', hread, hlength⟩ := readStaticPrefix_eq hstatic
    rw [hread, Option.map_some] at hmain
    exact (exact_iff_of_wentOn hmain).mpr (.inr ⟨addr, length, hstatic, rfl, hlength⟩)

/-- Any other mode is refused, and rightly so. -/
theorem exact_of_no_mode (hlong : 3 ≤ argv.length) (hd : firstChar argv 1 ≠ some 'd'.toUInt8)
    (hs : firstChar argv 1 ≠ some 's'.toUInt8)
    (hmain : mainArguments inetPton argv sharedPrefix = some ⟨.returned (-1), sharedPrefix⟩) :
    ExactArguments inetPton argv sharedPrefix ∧ CompleteArguments inetPton argv := by
  constructor
  · exact (exact_iff_of_returned hmain).mpr ⟨fun h => hd h.mode, fun _ _ h => hs h.mode⟩
  · refine ⟨fun htwo => ?_, fun _ h => absurd h hd, fun _ h => absurd h hs⟩
    omega

theorem exact_long_iff (inetPton : CString → Option In6Addr) (sharedPrefix : DhOptIAPrefix)
    (name mode lan : CString) (rest : List CString) :
    ExactArguments inetPton (name :: mode :: lan :: rest) sharedPrefix ↔
      CompleteArguments inetPton (name :: mode :: lan :: rest) := by
  have hmain := mainArguments_long inetPton sharedPrefix name mode lan rest
  have hlong : 3 ≤ (name :: mode :: lan :: rest).length := by simp
  have hchar (c : UInt8) : firstChar (name :: mode :: lan :: rest) 1 = some c ↔ mode.first = c :=
    Option.some_inj
  by_cases hd : mode.first = 'd'.toUInt8
  · rw [if_pos hd] at hmain
    exact exact_dhcp_iff hlong ((hchar _).mpr hd) hmain
  by_cases hs : mode.first = 's'.toUInt8
  · rw [if_neg hd, if_pos hs] at hmain
    exact exact_static_iff hlong ((hchar _).mpr hs) hmain
  · rw [if_neg hd, if_neg hs] at hmain
    obtain ⟨hexact, hcomplete⟩ :=
      exact_of_no_mode hlong (mt (hchar _).mp hd) (mt (hchar _).mp hs) hmain
    exact iff_of_true hexact hcomplete

end ArgumentsLemmas

open ArgumentsLemmas

/-- The arguments are handled exactly as documented exactly when they name no mode
without what belongs to it. -/
theorem exactArguments_iff (inetPton : CString → Option In6Addr) (argv : List CString)
    (sharedPrefix : DhOptIAPrefix) :
    ExactArguments inetPton argv sharedPrefix ↔ CompleteArguments inetPton argv := by
  match argv with
  | [] | [_] =>
    refine iff_of_true (exact_of_few (by simp) (mainArguments_short inetPton sharedPrefix (by simp)))
      ⟨fun h => ?_, fun h => ?_, fun h => ?_⟩
    all_goals simp at h
  | [name, arg] => exact exact_pair_iff inetPton sharedPrefix name arg
  | name :: mode :: lan :: rest => exact exact_long_iff inetPton sharedPrefix name mode lan rest

/-- The strings `pdrad`, `s`, `br0`, `2001:db8::` and `64`. -/
def exName : CString := ⟨['p', 'd', 'r', 'a', 'd'].map Char.toUInt8, by decide⟩
def exStatic : CString := ⟨['s'].map Char.toUInt8, by decide⟩
def exLan : CString := ⟨['b', 'r', '0'].map Char.toUInt8, by decide⟩
def exAddress : CString :=
  ⟨['2', '0', '0', '1', ':', 'd', 'b', '8', ':', ':'].map Char.toUInt8, by decide⟩
def exLength : CString := ⟨['6', '4'].map Char.toUInt8, by decide⟩

/-- What `inet_pton` makes of that address. -/
def exInetPton (text : CString) : Option In6Addr :=
  if text = exAddress then some (In6Addr.ofBytes [0x20, 0x01, 0x0d, 0xb8]) else none

example : mainArguments exInetPton [exName, exStatic, exLan, exAddress, exLength]
    ⟨0, 0, 0, In6Addr.zero⟩ = some ⟨.wentOn false (some exLan) none,
      staticPrefix (In6Addr.ofBytes [0x20, 0x01, 0x0d, 0xb8]) 64⟩ := rfl

/-- `pdrad s` follows `argv[2]`. -/
theorem exStatic_alone :
    ¬ ExactArguments exInetPton [exName, exStatic] ⟨0, 0, 0, In6Addr.zero⟩ := by
  rintro ⟨r, hr, _⟩
  have hrun : mainArguments exInetPton [exName, exStatic] ⟨0, 0, 0, In6Addr.zero⟩ = none := rfl
  rw [hrun] at hr
  cases hr

end Pdrad
