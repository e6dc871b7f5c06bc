import Ttp2.IpV4
import Ttp2.Lib.InetText

/-! # Addresses as text, checked and read (`tcp_networking.cpp`)

The text of an address is written by `inet_ntop` (`getLocalIpAddress`,
`getBroadcastIpAddress`, `receivePacketFrom`), checked by `isValidIpV4` and
read by `inet_addr` where a socket is bound, connected or sent to. What
`inet_ntop` wrote passes the check and is read back (`handed_out_read`). Other
text that passes is read as the numbers that were checked, or refused, exactly
if no number but the last ends before its dot (`read_as_checked_iff`). -/
namespace Ttp2
open Lib Octets Stoi Inet

namespace TcpNetworking

/-! ## The interfaces -/

/-- What `ifa_addr` points to, by its `sa_family`. -/
inductive SockAddr where
  | inet (sinAddr : InAddr)
  | packet
  | other
  deriving DecidableEq

/-- An entry of the list `getifaddrs` makes. -/
structure Ifaddrs where
  ifaName : Bytes
  ifaAddr : Option SockAddr
  up : Bool
  broadcast : Bool
  loopback : Bool
  /-- `ifa_broadaddr`, read as a `sockaddr_in` -/
  ifaBroadaddr : Option InAddr

/-- The loop of `getLocalIpAddress`: up to the first IPv4 address of the interface. -/
def localIpAddressFrom (interface : Bytes) : List Ifaddrs → Bytes
  | [] => []
  | ifa :: rest =>
    match ifa.ifaAddr with
    | some (.inet sinAddr) =>
      if ifa.ifaName = interface then inetNtop sinAddr else localIpAddressFrom interface rest
    | _ => localIpAddressFrom interface rest

/-- `none` is a `getifaddrs` that fails. -/
def getLocalIpAddress (ifaddr : Option (List Ifaddrs)) (interface : Bytes) : Bytes :=
  match ifaddr with
  | none => []
  | some ifaddr => localIpAddressFrom interface ifaddr

/-- The loop of `getBroadcastIpAddress`: an interface without a broadcast address is passed over. -/
def broadcastIpFrom : List Ifaddrs → Bytes
  | [] => []
  | ifa :: rest =>
    match ifa.ifaAddr with
    | some (.inet _) =>
      if ifa.broadcast ∧ ifa.up ∧ ¬ ifa.loopback then
        match ifa.ifaBroadaddr with
        | some sinAddr => inetNtop sinAddr
        | none => broadcastIpFrom rest
      else broadcastIpFrom rest
    | _ => broadcastIpFrom rest

def getBroadcastIpAddress (ifaddr : Option (List Ifaddrs)) : Bytes :=
  match ifaddr with
  | none => []
  | some ifaddr => broadcastIpFrom ifaddr

/-- `isValidInterface`, where `getifaddrs` succeeds: the loop goes over all entries. -/
def isValidInterface (addresses : List Ifaddrs) (interface : Bytes) : Bool :=
  addresses.foldl (fun isValid address =>
    if address.ifaAddr = some .packet ∧ address.ifaName = interface then true else isValid) false

/-- The address `main` of the server calls `bind` with, unless it refuses the interface. -/
def serverAddress (white : UInt8 → Bool) (addresses : List Ifaddrs) (ifaddr : Option (List Ifaddrs))
    (interface : Bytes) : Option InAddr :=
  if isValidInterface addresses interface then
    some (inetAddr white (getLocalIpAddress ifaddr interface))
  else none

/-! ## How an octet is read that was checked -/

section Octet
variable {digits tail : Bytes} (hne : digits ≠ []) (hdigits : ∀ c ∈ digits, isdigit c = true)
  (htail : NoDigit tail) (h : Passes (digits ++ tail))
include hne hdigits htail h

theorem Passes.value_digits :
    stoi (digits ++ tail) = .ok (decimalValue digits) ∧ decimalValue digits ≤ 255 := by
  obtain ⟨value, hvalue, hle⟩ := h.value
  rw [stoi_append hne hdigits htail] at hvalue ⊢
  rw [stoi_digits hne hdigits] at hvalue ⊢
  split at hvalue
  · cases hvalue
  · rename_i hsmall
    cases hvalue
    rw [if_neg hsmall]
    exact ⟨rfl, by omega⟩

theorem Passes.takeNumber {after : Bytes} (hafter : NoDigit after)
    (hletter : ∀ c ∈ after.head?, ¬ isalpha c = true) :
    Inet.takeNumber (digits ++ tail ++ after) = some (decimalValue digits, tail ++ after) := by
  have hzero : 1 < digits.length → digits.head? ≠ some 0x30 := by
    intro hlen hhead
    obtain ⟨c, more, rfl⟩ := List.exists_cons_of_ne_nil hne
    exact h.zero ⟨by rw [List.length_append]; omega, hhead⟩
  have hbehind : NoDigit (tail ++ after) ∧ ∀ c ∈ (tail ++ after).head?, ¬ isalpha c = true := by
    cases tail with
    | nil => exact ⟨hafter, hletter⟩
    | cons c more =>
      refine ⟨htail, ?_⟩
      rintro d ⟨⟩
      exact h.letters c (List.mem_append_right _ List.mem_cons_self)
  have hsmall := (h.value_digits hne hdigits htail).2
  rw [List.append_assoc, takeNumber_digits hne hdigits hzero hbehind.1 hbehind.2, if_pos (by omega)]

end Octet

theorem Passes.ne_nil {octet : Bytes} (h : Passes octet) : octet ≠ [] := by
  rintro rfl
  obtain ⟨value, hvalue, -⟩ := h.value
  rw [stoi_nil] at hvalue
  cases hvalue

/-- The digits an octet starts with, and what is behind them. -/
theorem exists_digits (octet : Bytes) : ∃ digits tail, octet = digits ++ tail ∧
    (∀ c ∈ digits, isdigit c = true) ∧ NoDigit tail := by
  refine ⟨octet.takeWhile isdigit, octet.dropWhile isdigit, List.takeWhile_append_dropWhile.symm,
    fun c hc => List.mem_takeWhile_imp hc, fun c hc => ?_⟩
  have hhead := List.head?_dropWhile_not isdigit octet
  rw [hc] at hhead
  exact Bool.eq_false_iff.mp hhead

/-! ## What is written is read back -/

theorem decimalOctet_decimal (octet : UInt8) : DecimalOctet (decimal octet.toNat) where
  nonempty := decimal_ne_nil _
  digits := fun _ => isdigit_of_mem_decimal
  canonical := by
    intro hlen
    refine head_decimal (Nat.pos_of_ne_zero fun hzero => ?_)
    rw [hzero] at hlen
    exact absurd hlen (by decide)
  range := by
    rw [decimalValue_decimal]
    exact Nat.le_of_lt_succ octet.toNat_lt

theorem dottedQuad_inetNtop (a : InAddr) : DottedQuad (inetNtop a) := by
  obtain ⟨octets, four⟩ := a
  obtain ⟨w, x, y, z, rfl⟩ := List.length_eq_four.mp four
  refine ⟨_, _, _, _, decimalOctet_decimal w, decimalOctet_decimal x, decimalOctet_decimal y,
    decimalOctet_decimal z, ?_⟩
  simp [inetNtop]

theorem isValidIpV4_of_dottedQuad {ipString : Bytes} (h : DottedQuad ipString) :
    isValidIpV4 ipString = .ok true := by
  obtain ⟨hlen, hall⟩ := (dottedQuad_iff ipString).mp h
  have hge := h.length_ge
  rw [isValidIpV4, if_neg (by omega), checkOctets_eq_ok (by decide), hlen]
  exact .inr ⟨fun octet ho => (hall octet ho).passes, by decide, rfl⟩

theorem intercalate_cons (octet next : Bytes) (rest : List Bytes) :
    [0x2E].intercalate (octet :: next :: rest) =
      octet ++ 0x2E :: [0x2E].intercalate (next :: rest) := by
  rw [List.intercalate_cons_cons, List.append_assoc]
  rfl

/-- Behind a dot no number goes on. -/
theorem noDigit_dot (s : Bytes) :
    NoDigit (0x2E :: s) ∧ ∀ c ∈ (0x2E :: s : Bytes).head?, ¬ isalpha c = true := by
  constructor
  · rintro c ⟨⟩
    decide
  · rintro c ⟨⟩
    decide

theorem takeNumber_decimal (octet : UInt8) {after : Bytes} (hafter : NoDigit after)
    (hletter : ∀ c ∈ after.head?, ¬ isalpha c = true) :
    Inet.takeNumber (decimal octet.toNat ++ after) = some (octet.toNat, after) := by
  have hdecimal := decimalOctet_decimal octet
  have hpasses := hdecimal.passes
  rw [← List.append_nil (decimal octet.toNat)] at hpasses ⊢
  rw [hpasses.takeNumber hdecimal.nonempty hdecimal.digits noDigit_nil hafter hletter,
    decimalValue_decimal, List.nil_append]

/-- The text of the octets that are left is read to its end. -/
theorem inetAtonFrom_decimal (white : UInt8 → Bool) {octets read : Bytes} {dots : Nat}
    (hlength : octets.length = dots + 1) (hread : read.length + dots = 3) :
    (inetAtonFrom white dots read ([0x2E].intercalate
      (octets.map fun octet => decimal octet.toNat))).map InAddr.octets =
        some (read ++ octets) := by
  induction octets generalizing read dots with
  | nil => cases hlength
  | cons octet octets ih =>
    have hle : octet.toNat ≤ 255 := Nat.le_of_lt_succ octet.toNat_lt
    cases octets with
    | nil =>
      obtain rfl : dots = 0 := (Nat.succ.inj hlength).symm
      have hnumber := takeNumber_decimal octet noDigit_nil (by simp)
      rw [List.append_nil] at hnumber
      obtain ⟨a, ha, hoctets⟩ :=
        lastNumber_ends hread hle (show endsText white [] = true from rfl)
      rw [List.map_singleton, List.intercalate_singleton, inetAtonFrom_last hnumber (.inl rfl), ha,
        Option.map_some, hoctets, UInt8.ofNat_toNat]
      rfl
    | cons next rest =>
      obtain ⟨dots, rfl⟩ : ∃ d, dots = d + 1 := ⟨rest.length, (Nat.succ.inj hlength).symm⟩
      obtain ⟨hdigit, hletter⟩ := noDigit_dot
        ([0x2E].intercalate (decimal next.toNat :: rest.map fun octet => decimal octet.toNat))
      have hnumber := takeNumber_decimal octet hdigit hletter
      rw [List.map_cons, List.map_cons, intercalate_cons, inetAtonFrom_dot hnumber hle,
        UInt8.ofNat_toNat]
      have hrest := @ih (read ++ [octet]) dots (Nat.succ.inj hlength)
        (by rw [List.length_append, List.length_singleton]; omega)
      rw [List.append_assoc] at hrest
      exact hrest

theorem inetAton_inetNtop (white : UInt8 → Bool) (a : InAddr) :
    inetAton white (inetNtop a) = some a := by
  obtain ⟨octets, four⟩ := a
  obtain ⟨b, hb, hoctets⟩ :=
    Option.map_eq_some_iff.mp (inetAtonFrom_decimal white four (show [].length + 3 = 3 from rfl))
  obtain ⟨octets', four'⟩ := b
  cases hoctets
  exact hb

/-- The text of an address passes the check, and is read as the address. -/
structure ReadBack (white : UInt8 → Bool) (text : Bytes) (a : InAddr) : Prop where
  written : text = inetNtop a
  valid : isValidIpV4 text = .ok true
  read : inetAton white text = some a

theorem readBack_inetNtop (white : UInt8 → Bool) (a : InAddr) : ReadBack white (inetNtop a) a :=
  ⟨rfl, isValidIpV4_of_dottedQuad (dottedQuad_inetNtop a), inetAton_inetNtop white a⟩

/-- The IPv4 address of an entry for this interface. -/
def localAddress (interface : Bytes) (ifa : Ifaddrs) : Option InAddr :=
  match ifa.ifaAddr with
  | some (.inet sinAddr) => if ifa.ifaName = interface then some sinAddr else none
  | _ => none

/-- The broadcast address of an IPv4 entry that is up and no loopback. -/
def broadcastAddress (ifa : Ifaddrs) : Option InAddr :=
  match ifa.ifaAddr with
  | some (.inet _) => if ifa.broadcast ∧ ifa.up ∧ ¬ ifa.loopback then ifa.ifaBroadaddr else none
  | _ => none

theorem localIpAddressFrom_eq (interface : Bytes) (ifaddr : List Ifaddrs) :
    localIpAddressFrom interface ifaddr =
      ((ifaddr.findSome? (localAddress interface)).map inetNtop).getD [] := by
  induction ifaddr with
  | nil => rfl
  | cons ifa rest ih =>
    rw [localIpAddressFrom, List.findSome?_cons, localAddress]
    split
    · split
      · rfl
      · exact ih
    · exact ih

theorem broadcastIpFrom_eq (ifaddr : List Ifaddrs) :
    broadcastIpFrom ifaddr = ((ifaddr.findSome? broadcastAddress).map inetNtop).getD [] := by
  induction ifaddr with
  | nil => rfl
  | cons ifa rest ih =>
    rw [broadcastIpFrom, List.findSome?_cons, broadcastAddress]
    split
    · split
      · split
        · rename_i haddr
          rw [haddr]
          rfl
        · rename_i haddr
          rw [haddr]
          exact ih
      · exact ih
    · exact ih

theorem getLocalIpAddress_eq (ifaddr : Option (List Ifaddrs)) (interface : Bytes) :
    getLocalIpAddress ifaddr interface =
      (((ifaddr.getD []).findSome? (localAddress interface)).map inetNtop).getD [] := by
  cases ifaddr with
  | none => rfl
  | some ifaddr => exact localIpAddressFrom_eq interface ifaddr

/-- **The addresses that are handed out** are those of the first entry that
fits; their text passes the check and is read as the address. -/
theorem handed_out_read (white : UInt8 → Bool) (ifaddr : Option (List Ifaddrs))
    (interface : Bytes) :
    (match (ifaddr.getD []).findSome? (localAddress interface) with
      | none => getLocalIpAddress ifaddr interface = []
      | some a => ReadBack white (getLocalIpAddress ifaddr interface) a) ∧
    (match (ifaddr.getD []).findSome? broadcastAddress with
      | none => getBroadcastIpAddress ifaddr = []
      | some a => ReadBack white (getBroadcastIpAddress ifaddr) a) := by
  have hbroadcast : getBroadcastIpAddress ifaddr =
      (((ifaddr.getD []).findSome? broadcastAddress).map inetNtop).getD [] := by
    cases ifaddr with
    | none => rfl
    | some ifaddr => exact broadcastIpFrom_eq ifaddr
  rw [getLocalIpAddress_eq, hbroadcast]
  constructor
  · cases (ifaddr.getD []).findSome? (localAddress interface) with
    | none => rfl
    | some a => exact readBack_inetNtop white a
  · cases (ifaddr.getD []).findSome? broadcastAddress with
    | none => rfl
    | some a => exact readBack_inetNtop white a

def numbers (octets : Bytes) : List Int := octets.map fun octet => (octet.toNat : Int)

/-- The numbers `isValidIpV4` has compared with 255. -/
def checkedNumbers (octets : List Bytes) : List Int :=
  octets.filterMap fun octet => (stoi octet).toOption

/-- A number, and behind it what ends the text. -/
def EndsEarly (white : UInt8 → Bool) (octet : Bytes) : Prop :=
  ∃ digits c rest, octet = digits ++ c :: rest ∧ digits ≠ [] ∧
    (∀ d ∈ digits, isdigit d = true) ∧ (c = 0 ∨ white c = true)

/-- A number before the last dot is the last one that is read, and fills the
octets of the others as well: they are not what was checked, unless all are 0. -/
def CutShort (white : UInt8 → Bool) (octets : List Bytes) : Prop :=
  ∃ before octet after, octets = before ++ octet :: after ∧ after ≠ [] ∧
    (∀ o ∈ before, ∀ c ∈ o, isdigit c = true) ∧ EndsEarly white octet ∧
      ∃ o ∈ octet :: after, stoi o ≠ .ok 0

section Read
variable {white : UInt8 → Bool}

theorem endsEarly_iff (hwhite : ∀ c, white c = true → isspace c = true) {digits tail : Bytes}
    (hdigits : ∀ c ∈ digits, isdigit c = true) (htail : NoDigit tail) :
    EndsEarly white (digits ++ tail) ↔ digits ≠ [] ∧ tail ≠ [] ∧ endsText white tail = true := by
  constructor
  · rintro ⟨digits', c, rest, hsplit, hne, hdigits', hc⟩
    have hnone : NoDigit (c :: rest) := by
      rintro d ⟨⟩ hdigit
      rcases hc with rfl | hc
      · exact absurd hdigit (by decide)
      · exact not_isspace_of_isdigit hdigit (hwhite c hc)
    have hsame := congrArg (List.takeWhile isdigit) hsplit
    rw [takeWhile_append_of_noDigit hdigits htail,
      takeWhile_append_of_noDigit hdigits' hnone] at hsame
    subst hsame
    obtain rfl := List.append_cancel_left hsplit
    exact ⟨hne, List.cons_ne_nil _ _, decide_eq_true hc⟩
  · rintro ⟨hne, htail', hends⟩
    obtain ⟨c, rest, rfl⟩ := List.exists_cons_of_ne_nil htail'
    exact ⟨digits, c, rest, rfl, hne, hdigits, of_decide_eq_true hends⟩

theorem cutShort_cons {octet : Bytes} {octets : List Bytes} (hne : octets ≠ []) :
    CutShort white (octet :: octets) ↔
      EndsEarly white octet ∧ (∃ o ∈ octet :: octets, stoi o ≠ .ok 0) ∨
        (∀ c ∈ octet, isdigit c = true) ∧ CutShort white octets := by
  constructor
  · rintro ⟨before, o, after, hsplit, hafter, hbefore, hends, hnonzero⟩
    cases before with
    | nil =>
      cases hsplit
      exact .inl ⟨hends, hnonzero⟩
    | cons b before =>
      cases hsplit
      obtain ⟨hdigits, hbefore⟩ := List.forall_mem_cons.mp hbefore
      exact .inr ⟨hdigits, before, o, after, rfl, hafter, hbefore, hends, hnonzero⟩
  · rintro (⟨hends, hnonzero⟩ | ⟨hdigits, before, o, after, rfl, hafter, hbefore, hends, hnonzero⟩)
    · exact ⟨[], octet, octets, rfl, hne, fun _ h => absurd h List.not_mem_nil, hends, hnonzero⟩
    · exact ⟨octet :: before, o, after, rfl, hafter, List.forall_mem_cons.mpr ⟨hdigits, hbefore⟩,
        hends, hnonzero⟩

theorem not_cutShort_singleton (octet : Bytes) : ¬ CutShort white [octet] := by
  rintro ⟨before, o, after, hsplit, hafter, -⟩
  have hlength := congrArg List.length hsplit
  have hpos := List.length_pos_iff.mpr hafter
  simp only [List.length_append, List.length_cons, List.length_nil] at hlength
  omega

theorem checkedNumbers_cons {octet : Bytes} {value : Int} (h : stoi octet = .ok value)
    (octets : List Bytes) :
    checkedNumbers (octet :: octets) = value :: checkedNumbers octets := by
  rw [checkedNumbers, List.filterMap_cons, h]
  rfl

/-- The octets that pass have a number each. -/
theorem checkedNumbers_zero {octets : List Bytes} (h : ∀ octet ∈ octets, Passes octet) :
    (checkedNumbers octets).length = octets.length ∧
      ((∀ n ∈ checkedNumbers octets, n = 0) ↔ ∀ octet ∈ octets, stoi octet = .ok 0) := by
  induction octets with
  | nil => exact ⟨rfl, iff_of_true (fun _ h => absurd h List.not_mem_nil)
      fun _ h => absurd h List.not_mem_nil⟩
  | cons octet octets ih =>
    obtain ⟨hp, hpasses⟩ := List.forall_mem_cons.mp h
    obtain ⟨hlength, hzero⟩ := ih hpasses
    obtain ⟨value, hvalue, -⟩ := hp.value
    rw [checkedNumbers_cons hvalue, List.length_cons, List.length_cons, hlength, List.forall_mem_cons,
      List.forall_mem_cons, hvalue, hzero]
    exact ⟨rfl, and_congr_left fun _ => by rw [Except.ok.injEq]⟩

/-- A number behind zeros is the row of numbers it begins if all are zero. -/
theorem zeros_append_iff {v : Int} {dots : Nat} {ns : List Int} (hlength : ns.length = dots + 1) :
    List.replicate (dots + 1) 0 ++ [v] = v :: ns ↔ ∀ n ∈ v :: ns, n = 0 := by
  constructor
  · intro h
    rw [← h]
    rw [List.replicate_succ, List.cons_append] at h
    obtain ⟨hv, -⟩ := List.cons.inj h
    intro n hn
    rcases List.mem_append.mp hn with hn | hn
    · exact List.eq_of_mem_replicate hn
    · rw [List.mem_singleton.mp hn, ← hv]
  · intro h
    obtain ⟨rfl, hns⟩ := List.forall_mem_cons.mp h
    rw [List.eq_replicate_of_mem hns, hlength, ← List.replicate_succ', List.replicate_succ]

/-- A number of an octet that is read. -/
theorem numbers_concat (read : Bytes) {value : Nat} (h : value ≤ 255) (octets : Bytes) :
    numbers (read ++ (octets ++ [UInt8.ofNat value])) =
      numbers read ++ (numbers octets ++ [(value : Int)]) := by
  have hoctet : (UInt8.ofNat value).toNat = value := UInt8.toNat_ofNat_of_lt' (Nat.lt_succ_of_le h)
  rw [numbers, List.map_append, List.map_append, List.map_singleton, hoctet]
  rfl

/-- Text that begins with no number is refused. -/
theorem inetAtonFrom_noDigit {octet : Bytes} (h : NoDigit octet) (octets : List Bytes) (dots : Nat)
    (read : Bytes) : inetAtonFrom white dots read ([0x2E].intercalate (octet :: octets)) = none := by
  refine inetAtonFrom_none (takeNumber_noDigit ?_)
  cases octets with
  | nil => rwa [List.intercalate_singleton]
  | cons next rest =>
    rw [intercalate_cons]
    cases octet with
    | nil =>
      rintro c ⟨⟩
      decide
    | cons c more => exact h

/-- What the last octet is read as. -/
theorem reads_last {digits tail read : Bytes} (hne : digits ≠ [])
    (hdigits : ∀ c ∈ digits, isdigit c = true) (htail : NoDigit tail)
    (hp : Passes (digits ++ tail)) (hread : read.length = 3) {a : InAddr}
    (ha : inetAtonFrom white 0 read (digits ++ tail) = some a) :
    numbers a.octets = numbers read ++ checkedNumbers [digits ++ tail] := by
  obtain ⟨hvalue, hle⟩ := hp.value_digits hne hdigits htail
  have hnumber := hp.takeNumber hne hdigits htail noDigit_nil (by simp)
  rw [List.append_nil, List.append_nil] at hnumber
  rw [inetAtonFrom_last hnumber (.inl rfl)] at ha
  by_cases hends : endsText white tail = true
  · obtain ⟨b, hb, hoctets⟩ := lastNumber_ends (show read.length + 0 = 3 from hread) hle hends
    rw [hb] at ha
    cases ha
    rw [hoctets, numbers_concat read hle, checkedNumbers_cons hvalue]
    rfl
  · rw [lastNumber_not_ends hends] at ha
    cases ha

/-- What the text from an octet on is read as, and what was checked of it. -/
theorem reads_iff (hwhite : ∀ c, white c = true → isspace c = true) {octets : List Bytes}
    {read : Bytes} {dots : Nat} (hpasses : ∀ octet ∈ octets, Passes octet)
    (hdot : ∀ octet ∈ octets, 0x2E ∉ octet) (hlength : octets.length = dots + 1)
    (hread : read.length + dots = 3) :
    (∀ a, inetAtonFrom white dots read ([0x2E].intercalate octets) = some a →
      numbers a.octets = numbers read ++ checkedNumbers octets) ↔ ¬ CutShort white octets := by
  induction octets generalizing read dots with
  | nil => cases hlength
  | cons octet octets ih =>
    obtain ⟨hp, hpasses'⟩ := List.forall_mem_cons.mp hpasses
    obtain ⟨hnodot, hdot'⟩ := List.forall_mem_cons.mp hdot
    obtain ⟨digits, tail, rfl, hdigits, htail⟩ := exists_digits octet
    have hearly := endsEarly_iff hwhite hdigits htail
    by_cases hne : digits = []
    · subst hne
      have hfirst : NoDigit ([] ++ tail) := htail
      refine iff_of_true (fun a ha => ?_) ?_
      · rw [inetAtonFrom_noDigit hfirst] at ha
        cases ha
      · cases octets with
        | nil => exact not_cutShort_singleton _
        | cons next rest =>
          rw [cutShort_cons (List.cons_ne_nil _ _)]
          rintro (⟨hends, -⟩ | ⟨hall, -⟩)
          · exact (hearly.mp hends).1 rfl
          · obtain ⟨c, more, hcons⟩ := List.exists_cons_of_ne_nil hp.ne_nil
            exact hfirst c (by rw [hcons]; rfl) (hall c (by rw [hcons]; exact List.mem_cons_self))
    cases octets with
    | nil =>
      obtain rfl : dots = 0 := (Nat.succ.inj hlength).symm
      refine iff_of_true (fun a ha => ?_) (not_cutShort_singleton _)
      rw [List.intercalate_singleton] at ha
      exact reads_last hne hdigits htail hp hread ha
    | cons next rest =>
      obtain ⟨dots, rfl⟩ : ∃ d, dots = d + 1 := ⟨rest.length, (Nat.succ.inj hlength).symm⟩
      obtain ⟨hvalue, hle⟩ := hp.value_digits hne hdigits htail
      obtain ⟨hdigit, hletter⟩ := noDigit_dot ([0x2E].intercalate (next :: rest))
      have hnumber := hp.takeNumber hne hdigits htail hdigit hletter
      rw [intercalate_cons, cutShort_cons (List.cons_ne_nil _ _), checkedNumbers_cons hvalue]
      cases tail with
      | nil =>
        -- a number, and a dot behind it
        have hnumbers : numbers (read ++ [UInt8.ofNat (decimalValue digits)]) =
            numbers read ++ [(decimalValue digits : Int)] := numbers_concat read hle []
        have hrest := @ih (read ++ [UInt8.ofNat (decimalValue digits)]) dots hpasses' hdot'
          (Nat.succ.inj hlength) (by rw [List.length_append, List.length_singleton]; omega)
        rw [hnumbers, List.append_assoc, List.singleton_append] at hrest
        have hon : ¬ EndsEarly white (digits ++ []) := fun h => (hearly.mp h).2.1 rfl
        have hall : ∀ c ∈ digits ++ [], isdigit c = true := by rwa [List.append_nil]
        rw [inetAtonFrom_dot hnumber hle, or_iff_right fun h => hon h.1, and_iff_right hall]
        exact hrest
      | cons c more =>
        have hc : (c :: more ++ 0x2E :: [0x2E].intercalate (next :: rest)).head? ≠ some 0x2E := by
          rintro ⟨⟩
          exact hnodot (List.mem_append_right _ List.mem_cons_self)
        have hnot : ¬ ∀ d ∈ digits ++ c :: more, isdigit d = true :=
          fun hall => htail c rfl (hall c (List.mem_append_right _ List.mem_cons_self))
        rw [inetAtonFrom_last hnumber (.inr hc), or_iff_left fun h => hnot h.1]
        by_cases hends : endsText white (c :: more) = true
        · -- the text ends here
          have hzero := (checkedNumbers_zero hpasses).2
          rw [checkedNumbers_cons hvalue] at hzero
          obtain ⟨b, hb, hoctets⟩ := lastNumber_ends hread hle
            (show endsText white (c :: more ++ 0x2E :: [0x2E].intercalate (next :: rest)) = true
              from hends)
          rw [hb, and_iff_right (hearly.mpr ⟨hne, List.cons_ne_nil _ _, hends⟩)]
          simp only [Option.some.injEq, forall_eq', not_exists, not_and, not_not]
          rw [hoctets, numbers_concat read hle, List.append_cancel_left_eq, numbers,
            List.map_replicate, ← hzero]
          exact zeros_append_iff
            ((checkedNumbers_zero hpasses').1.trans (Nat.succ.inj hlength))
        · have hnone : ¬ endsText white
              (c :: more ++ 0x2E :: [0x2E].intercalate (next :: rest)) = true := hends
          refine iff_of_true (fun a ha => ?_) fun h => hends (hearly.mp h.1).2.2
          rw [lastNumber_not_ends hnone] at ha
          cases ha

/-- Four octets that pass: all that `isValidIpV4` has made sure of. -/
theorem passes_of_valid {ipString : Bytes} (h : isValidIpV4 ipString = .ok true) :
    (ipString.splitOn 0x2E).length = 4 ∧ ∀ octet ∈ ipString.splitOn 0x2E, Passes octet := by
  unfold isValidIpV4 at h
  split at h
  · cases h
  · rcases (checkOctets_eq_ok (by decide) _ _).mp h with ⟨-, hfalse⟩ | ⟨hall, -, hfour⟩
    · cases hfalse
    · rw [Nat.zero_add] at hfour
      exact ⟨of_decide_eq_true hfour.symm, hall⟩

end Read

/-- **What was checked is what is read**: `inet_addr` reads text that passed
`isValidIpV4` as the numbers that were compared with 255, if it does not refuse
it, exactly if no number before the last dot ends the text early. -/
theorem read_as_checked_iff (white : UInt8 → Bool) (hwhite : ∀ c, white c = true → isspace c = true)
    (ipString : Bytes) (hvalid : isValidIpV4 ipString = .ok true) :
    (∀ a, inetAton white ipString = some a →
      numbers a.octets = checkedNumbers (ipString.splitOn 0x2E)) ↔
        ¬ CutShort white (ipString.splitOn 0x2E) := by
  obtain ⟨hfour, hpasses⟩ := passes_of_valid hvalid
  have hreads := reads_iff hwhite hpasses (fun _ => not_mem_splitOn) hfour
    (show ([] : Bytes).length + 3 = 3 from rfl)
  rw [List.intercalate_splitOn] at hreads
  exact hreads

/-- `"10.0.0.7 "`, which a library may read up to the blank. -/
theorem read_as_checked_iff_blank :
    (∀ a, inetAton isspace [0x31, 0x30, 0x2E, 0x30, 0x2E, 0x30, 0x2E, 0x37, 0x20] = some a →
      numbers a.octets = checkedNumbers ([0x31, 0x30, 0x2E, 0x30, 0x2E, 0x30, 0x2E, 0x37,
        0x20].splitOn 0x2E)) ↔
      ¬ CutShort isspace ([0x31, 0x30, 0x2E, 0x30, 0x2E, 0x30, 0x2E, 0x37, 0x20].splitOn 0x2E) :=
  read_as_checked_iff isspace (fun _ => id) _ (by decide +kernel)

/-- `"1 .2.3.4"` passes, and is read as 0.0.0.1 up to the blank. -/
example : isValidIpV4 [0x31, 0x20, 0x2E, 0x32, 0x2E, 0x33, 0x2E, 0x34] = .ok true ∧
    (inetAton isspace [0x31, 0x20, 0x2E, 0x32, 0x2E, 0x33, 0x2E, 0x34]).map InAddr.octets =
      some [0, 0, 0, 1] := by
  decide +kernel

end TcpNetworking
end Ttp2
