import TaskDiscovery.Go.Net

/-!
# Networks of the `net` package

`net.ParseCIDR` reads `address/length`, and `IPNet.String` prints a network in that form again. This
file embeds both on code points, with the formatting of addresses that they rest on: dotted decimals
for IPv4, and for IPv6 hexadecimal groups of which the longest run of zeros is left out.

A network that was parsed, or made from a single address, is proper: its mask is a number of leading
ones, and its address has no bits beside the mask. The main result is that printing such a network
and parsing it again gives a network that contains the same addresses (`exists_parseCIDR_string`).
The printed text need not lead to the same bytes: an IPv4 network has two forms.
-/

namespace Go

/-! ## Masks -/

/-- The loop of `net.CIDRMask`: the bytes that are left, and the ones that are left. -/
def cidrMaskBytes : ℕ → ℕ → List UInt8
  | 0, _ => []
  | l + 1, n =>
    if 8 ≤ n then 0xff :: cidrMaskBytes l (n - 8)
    else ~~~((0xff : UInt8) >>> UInt8.ofNat n) :: cidrMaskBytes l 0

def cidrMask (ones bits : ℕ) : List UInt8 := cidrMaskBytes (bits / 8) ones

/-- Shift out the leading ones of a byte, at most as many as it has bits. -/
def shiftOnes : ℕ → UInt8 → ℕ × UInt8
  | 0, v => (0, v)
  | fuel + 1, v =>
    if v &&& 0x80 ≠ 0 then ((shiftOnes fuel (v <<< 1)).1 + 1, (shiftOnes fuel (v <<< 1)).2)
    else (0, v)

/-- `simpleMaskLength`: the number of leading ones, if only zeros follow. -/
def simpleMaskLength : List UInt8 → Option ℕ
  | [] => some 0
  | v :: mask =>
    if v = 0xff then (simpleMaskLength mask).map (8 + ·)
    else if (shiftOnes 8 v).2 ≠ 0 then none
    else if mask.all (· = 0) then some (shiftOnes 8 v).1
    else none

def IP.mask (ip : IP) (mask : List UInt8) : IP :=
  let m := if mask.length = 16 ∧ ip.length = 4 ∧ (mask.take 12).all (· = 0xff) then mask.drop 12
    else mask
  let x := if m.length = 4 ∧ ip.length = 16 ∧ ip.take 12 = v4InV6Prefix then ip.drop 12 else ip
  if x.length = m.length then List.zipWith (· &&& ·) x m else []

example : cidrMask 20 32 = [0xff, 0xff, 0xf0, 0] := by decide
example : simpleMaskLength [0xff, 0xff, 0xf0, 0] = some 20 := by decide

theorem length_cidrMaskBytes (l n : ℕ) : (cidrMaskBytes l n).length = l := by
  induction l generalizing n with
  | zero => rfl
  | succ l ih =>
    rw [cidrMaskBytes]
    split_ifs <;> rw [List.length_cons, ih]

theorem length_cidrMask (ones bits : ℕ) : (cidrMask ones bits).length = bits / 8 :=
  length_cidrMaskBytes ..

theorem simpleMaskLength_v4 : ∀ l : Fin 33, simpleMaskLength (cidrMask l 32) = some l.val := by
  decide +kernel

theorem simpleMaskLength_v6 : ∀ l : Fin 129, simpleMaskLength (cidrMask l 128) = some l.val := by
  decide +kernel

/-! ## Printing addresses -/

def digitChar (d : ℕ) : Char := Char.ofNat (48 + d)

/-- `itoa.Uitoa`, for what is printed here. -/
def itoa (n : ℕ) : List Char :=
  if n < 10 then [digitChar n]
  else if n < 100 then [digitChar (n / 10), digitChar (n % 10)]
  else [digitChar (n / 100), digitChar (n / 10 % 10), digitChar (n % 10)]

/-- The digits of `appendHex`. -/
def hexChar (d : ℕ) : Char := if d < 10 then digitChar d else Char.ofNat (87 + d)

/-- `appendHex`: a group of an IPv6 address, without leading zeros. -/
def appendHex (x : ℕ) : List Char :=
  (if 0x1000 ≤ x then [hexChar (x / 0x1000)] else [])
    ++ (if 0x100 ≤ x then [hexChar (x / 0x100 % 16)] else [])
    ++ (if 0x10 ≤ x then [hexChar (x / 0x10 % 16)] else [])
    ++ [hexChar (x % 16)]

def v6Groups : IP → List ℕ
  | hi :: lo :: ip => (hi.toNat * 256 + lo.toNat) :: v6Groups ip
  | _ => []

/-- The zeros that a list of groups starts with. -/
def zeroRun (groups : List ℕ) : ℕ := (groups.takeWhile (· = 0)).length

/-- The first loop of `appendTo6`: the longest run of at least two zeros, the first of them if there
are several, as its start and its end. -/
def longestZeroRun (groups : List ℕ) : ℕ × ℕ :=
  (List.range 8).foldl (fun run i ↦
    let l := zeroRun (groups.drop i)
    if 2 ≤ l ∧ run.2 - run.1 < l then (i, i + l) else run) (0, 0)

def joinGroups : List ℕ → List Char
  | [] => []
  | [g] => appendHex g
  | g :: groups => appendHex g ++ ':' :: joinGroups groups

/-- `appendTo6`: the longest run of zeros is left out. -/
def v6String (ip : IP) : List Char :=
  let groups := v6Groups ip
  let run := longestZeroRun groups
  if run.1 = run.2 then joinGroups groups
  else joinGroups (groups.take run.1) ++ ':' :: ':' :: joinGroups (groups.drop run.2)

def v4String : IP → List Char
  | [a, b, c, d] =>
    itoa a.toNat ++ '.' :: (itoa b.toNat ++ '.' :: (itoa c.toNat ++ '.' :: itoa d.toNat))
  | _ => []

/-- `IP.String`, for an address of four or sixteen bytes. -/
def IP.string (ip : IP) : List Char :=
  match ip.to4 with
  | some v4 => v4String v4
  | none => v6String ip

/-- `IPMask.String`: the bytes in hexadecimal. -/
def maskString (mask : List UInt8) : List Char :=
  mask.flatMap fun b ↦ [hexChar (b.toNat / 16), hexChar (b.toNat % 16)]

def IPNet.string (n : IPNet) : List Char :=
  match n.networkNumberAndMask with
  | none => "<nil>".toList
  | some (nn, m) =>
    match simpleMaskLength m with
    | none => nn.string ++ '/' :: maskString m
    | some l => nn.string ++ '/' :: itoa l

/-! ## Parsing networks -/

/-- `Addr.BitLen` of text that `netip.ParseAddr` accepts: the first separator decides the family. -/
def addrBits (s : List Char) : ℕ :=
  if s.find? (fun c ↦ decide (c = '.' ∨ c = ':' ∨ c = '%')) = some '.' then 32 else 128

/-- `dtoi` on text that has to be a number as a whole. -/
def dtoi (s : List Char) : Option ℕ :=
  if s = [] ∨ s.any (fun c ↦ !isDigit c) then none
  else
    let n := s.foldl (fun n c ↦ n * 10 + (c.toNat - 48)) 0
    if n < 0xFFFFFF then some n else none

/-- `net.ParseCIDR`, as far as the network is concerned. -/
def parseCIDR (s : List Char) : Option IPNet :=
  if '/' ∉ s then none
  else
    let (addr, mask) := cut '/' s
    match parseIP addr, dtoi mask with
    | some ip, some n =>
      if n ≤ addrBits addr then
        some ⟨ip.mask (cidrMask n (addrBits addr)), cidrMask n (addrBits addr)⟩
      else none
    | _, _ => none

example : parseCIDR "192.168.1.77/24".toList = some ⟨[192, 168, 1, 0], [0xff, 0xff, 0xff, 0]⟩ := by
  decide +kernel
example : (IPNet.mk (v4InV6Prefix ++ [10, 0, 0, 5]) [255, 255, 255, 255]).string
    = "10.0.0.5/32".toList := by
  decide +kernel
example : (parseCIDR "2001:db8:0:0:1:0:0:1/64".toList).map IPNet.string
    = some "2001:db8::/64".toList := by
  decide +kernel

/-! ## Reading back an IPv4 address -/

theorem isDigit_digitChar :
    ∀ d : Fin 10, isDigit (digitChar d) = true ∧ (digitChar d).toNat - 48 = d := by
  decide

theorem parseIPv4Fields_digit {d : ℕ} (hd : d < 10) (s : List Char) (val digLen : ℕ) (fields : IP) :
    parseIPv4Fields (digitChar d :: s) val digLen fields
      = if digLen = 1 ∧ val = 0 then none
        else if 255 < val * 10 + d then none
        else parseIPv4Fields s (val * 10 + d) (digLen + 1) fields := by
  obtain ⟨hdigit, hval⟩ := isDigit_digitChar ⟨d, hd⟩
  rw [parseIPv4Fields, if_pos hdigit, hval]

theorem parseIPv4Fields_itoa {n : ℕ} (hn : n < 256) (s : List Char) (fields : IP) :
    parseIPv4Fields (itoa n ++ s) 0 0 fields
      = parseIPv4Fields s n (itoa n).length fields := by
  rw [itoa]
  split_ifs with h10 h100
  · simp only [List.cons_append, List.nil_append]
    rw [parseIPv4Fields_digit h10, if_neg (by omega), if_neg (by omega)]
    simp
  · have hdiv : n / 10 * 10 + n % 10 = n := Nat.div_add_mod' n 10
    simp only [List.cons_append, List.nil_append]
    rw [parseIPv4Fields_digit (by omega), if_neg (by omega), if_neg (by omega),
      parseIPv4Fields_digit (by omega), if_neg (by omega), if_neg (by omega)]
    simp [hdiv]
  · have hdiv : (n / 100 * 10 + n / 10 % 10) * 10 + n % 10 = n := by omega
    simp only [List.cons_append, List.nil_append]
    rw [parseIPv4Fields_digit (by omega), if_neg (by omega), if_neg (by omega),
      parseIPv4Fields_digit (by omega), if_neg (by omega), if_neg (by omega),
      parseIPv4Fields_digit (by omega), if_neg (by omega), if_neg (by omega)]
    simp [hdiv]

theorem itoa_ne_nil (n : ℕ) : itoa n ≠ [] := by
  rw [itoa]
  split_ifs <;> simp

theorem parseIPv4Fields_itoa_dot {n : ℕ} (hn : n < 256) {s : List Char} (hs : s ≠ []) {fields : IP}
    (hlen : fields.length < 3) :
    parseIPv4Fields (itoa n ++ '.' :: s) 0 0 fields
      = parseIPv4Fields s 0 0 (fields ++ [UInt8.ofNat n]) := by
  have hdigits : (itoa n).length ≠ 0 := by simpa using itoa_ne_nil n
  rw [parseIPv4Fields_itoa hn, parseIPv4Fields, if_neg (by decide), if_pos rfl,
    if_neg (by simp [hdigits, hs]), if_neg (by omega)]

/-- **Round trip of an IPv4 address.** -/
theorem parseIPv4Fields_v4String (a b c d : UInt8) :
    parseIPv4Fields (v4String [a, b, c, d]) 0 0 [] = some [a, b, c, d] := by
  have hlast : parseIPv4Fields (itoa d.toNat) 0 0 [a, b, c] = some [a, b, c, d] := by
    have h := parseIPv4Fields_itoa d.toNat_lt [] [a, b, c]
    rw [List.append_nil] at h
    rw [h]
    simp [parseIPv4Fields]
  rw [v4String, parseIPv4Fields_itoa_dot a.toNat_lt (by simp) (by simp),
    parseIPv4Fields_itoa_dot b.toNat_lt (by simp) (by simp),
    parseIPv4Fields_itoa_dot c.toNat_lt (itoa_ne_nil _) (by simp)]
  simpa using hlast

/-! ## Reading back an IPv6 address -/

theorem isHexDigit_hexChar :
    ∀ d : Fin 16, isHexDigit (hexChar d) = true ∧ hexValue (hexChar d) = d := by
  decide

/-- What a printed group consists of, and what it means. -/
theorem appendHex_spec {x : ℕ} (hx : x < 65536) :
    (∀ c ∈ appendHex x, isHexDigit c = true) ∧ appendHex x ≠ [] ∧ (appendHex x).length ≤ 4
      ∧ (appendHex x).foldl (fun acc c ↦ acc * 16 + hexValue c) 0 = x := by
  have hdigit (d : ℕ) (hd : d < 16) : isHexDigit (hexChar d) = true :=
    (isHexDigit_hexChar ⟨d, hd⟩).1
  have hvalue (d : ℕ) (hd : d < 16) : hexValue (hexChar d) = d := (isHexDigit_hexChar ⟨d, hd⟩).2
  have h3 := hdigit (x / 0x1000) (by omega)
  have h2 := hdigit (x / 0x100 % 16) (by omega)
  have h1 := hdigit (x / 0x10 % 16) (by omega)
  have h0 := hdigit (x % 16) (by omega)
  have v3 := hvalue (x / 0x1000) (by omega)
  have v2 := hvalue (x / 0x100 % 16) (by omega)
  have v1 := hvalue (x / 0x10 % 16) (by omega)
  have v0 := hvalue (x % 16) (by omega)
  rw [appendHex]
  split_ifs <;> simp [h0, h1, h2, h3, v0, v1, v2, v3] <;> omega

def bytesOfGroup (g : ℕ) : IP := [UInt8.ofNat (g / 256), UInt8.ofNat (g % 256)]

theorem groupBytes_appendHex {g : ℕ} (hg : g < 65536) :
    groupBytes (appendHex g) = bytesOfGroup g := by
  rw [groupBytes, (appendHex_spec hg).2.2.2, bytesOfGroup]

theorem takeWhile_appendHex {g : ℕ} (hg : g < 65536) {s : List Char}
    (hs : s.head?.all fun c ↦ !isHexDigit c) :
    (appendHex g ++ s).takeWhile isHexDigit = appendHex g
      ∧ (appendHex g ++ s).dropWhile isHexDigit = s := by
  have hhex := (appendHex_spec hg).1
  rw [List.takeWhile_append_of_pos hhex, List.dropWhile_append_of_pos hhex]
  cases s with
  | nil => simp
  | cons c s =>
    have hc : isHexDigit c = false := by simpa using hs
    simp [hc]

section Groups

variable {n g : ℕ} {gs gs' : List ℕ} {e : Option ℕ} {ip : IP} {s : List Char} {c : Char}

theorem parseIPv6Groups_last (hg : g < 65536) :
    parseIPv6Groups (n + 1) (appendHex g) e ip = some (ip ++ bytesOfGroup g, e) := by
  obtain ⟨-, hne, hlen, -⟩ := appendHex_spec hg
  obtain ⟨htake, hdrop⟩ := takeWhile_appendHex hg (s := []) rfl
  rw [List.append_nil] at htake hdrop
  rw [parseIPv6Groups]
  simp only [htake, hdrop, hne, groupBytes_appendHex hg, false_or, if_neg hlen.not_gt]

theorem parseIPv6Groups_colon (hg : g < 65536) (hc : c ≠ ':') :
    parseIPv6Groups (n + 1) (appendHex g ++ ':' :: c :: s) e ip
      = parseIPv6Groups n (c :: s) e (ip ++ bytesOfGroup g) := by
  obtain ⟨-, hne, hlen, -⟩ := appendHex_spec hg
  obtain ⟨htake, hdrop⟩ := takeWhile_appendHex hg (s := ':' :: c :: s) rfl
  have hdot : ':' ≠ '.' := by decide
  rw [parseIPv6Groups]
  simp only [htake, hdrop, hne, groupBytes_appendHex hg, false_or, if_neg hlen.not_gt, if_neg hdot,
    if_true, if_neg hc]

theorem parseIPv6Groups_ellipsis (hg : g < 65536) :
    parseIPv6Groups (n + 1) (appendHex g ++ ':' :: ':' :: s) none ip
      = if s = [] then some (ip ++ bytesOfGroup g, some (ip.length + 2))
        else parseIPv6Groups n s (some (ip.length + 2)) (ip ++ bytesOfGroup g) := by
  obtain ⟨-, hne, hlen, -⟩ := appendHex_spec hg
  obtain ⟨htake, hdrop⟩ := takeWhile_appendHex hg (s := ':' :: ':' :: s) rfl
  have hdot : ':' ≠ '.' := by decide
  rw [parseIPv6Groups]
  simp only [htake, hdrop, hne, groupBytes_appendHex hg, false_or, if_neg hlen.not_gt, if_neg hdot,
    if_true, Option.isSome_none, Bool.false_eq_true, if_false]

theorem isHexDigit_ne_colon (h : isHexDigit c = true) : c ≠ ':' := by
  rintro rfl
  exact absurd h (by decide)

theorem joinGroups_cons (hgs : gs ≠ []) :
    joinGroups (g :: gs) = appendHex g ++ ':' :: joinGroups gs := by
  cases gs with
  | nil => exact absurd rfl hgs
  | cons g' gs => rfl

theorem exists_joinGroups_eq_cons (hlt : ∀ g ∈ gs, g < 65536) (hgs : gs ≠ []) :
    ∃ c t, joinGroups gs = c :: t ∧ isHexDigit c = true := by
  cases gs with
  | nil => exact absurd rfl hgs
  | cons g gs =>
    obtain ⟨hhex, hne, -, -⟩ := appendHex_spec (hlt g List.mem_cons_self)
    obtain ⟨c, t, hct⟩ := List.exists_cons_of_ne_nil hne
    rw [hct] at hhex
    by_cases hnil : gs = []
    · subst hnil
      exact ⟨c, t, hct, hhex c List.mem_cons_self⟩
    · rw [joinGroups_cons hnil, hct]
      exact ⟨c, t ++ ':' :: joinGroups gs, rfl, hhex c List.mem_cons_self⟩

theorem parseIPv6Groups_joinGroups_concat (hlt : ∀ g' ∈ gs ++ [g], g' < 65536)
    (hlen : gs.length ≤ n) :
    parseIPv6Groups n (joinGroups (gs ++ [g]) ++ s) e ip
      = parseIPv6Groups (n - gs.length) (appendHex g ++ s) e (ip ++ gs.flatMap bytesOfGroup) := by
  induction gs generalizing n ip with
  | nil => simp [joinGroups]
  | cons g' gs ih =>
    rw [List.length_cons] at hlen
    obtain ⟨n, rfl⟩ : ∃ m, n = m + 1 := ⟨n - 1, by omega⟩
    have hlt' : ∀ g' ∈ gs ++ [g], g' < 65536 := fun g' hg' ↦ hlt g' (List.mem_cons_of_mem _ hg')
    have hnil : gs ++ [g] ≠ [] := by simp
    obtain ⟨c, t, hct, hhex⟩ := exists_joinGroups_eq_cons hlt' hnil
    have htext : joinGroups (g' :: gs ++ [g]) ++ s = appendHex g' ++ ':' :: c :: (t ++ s) := by
      rw [List.cons_append, joinGroups_cons hnil, hct]
      simp
    rw [htext, parseIPv6Groups_colon (hlt g' List.mem_cons_self) (isHexDigit_ne_colon hhex),
      ← List.cons_append, ← hct, ih hlt' (by omega)]
    simp

theorem parseIPv6Groups_joinGroups (hlt : ∀ g ∈ gs, g < 65536) (hgs : gs ≠ [])
    (hlen : gs.length ≤ n) :
    parseIPv6Groups n (joinGroups gs) e ip = some (ip ++ gs.flatMap bytesOfGroup, e) := by
  obtain ⟨gs, g, rfl⟩ := (List.eq_nil_or_concat' gs).resolve_left hgs
  rw [List.length_append, List.length_singleton] at hlen
  obtain ⟨m, hm⟩ : ∃ m, n - gs.length = m + 1 := ⟨n - gs.length - 1, by omega⟩
  rw [← List.append_nil (joinGroups _), parseIPv6Groups_joinGroups_concat hlt (by omega), hm,
    List.append_nil, parseIPv6Groups_last (hlt g (by simp))]
  simp

/-- Groups in front of a run of zeros are read, and the position of the run is noted. -/
theorem parseIPv6Groups_joinGroups_ellipsis (hlt : ∀ g ∈ gs, g < 65536) (hgs : gs ≠ [])
    (hlen : gs.length ≤ n) :
    parseIPv6Groups n (joinGroups gs ++ ':' :: ':' :: s) none ip
      = if s = [] then
          some (ip ++ gs.flatMap bytesOfGroup, some (ip ++ gs.flatMap bytesOfGroup).length)
        else parseIPv6Groups (n - gs.length) s (some (ip ++ gs.flatMap bytesOfGroup).length)
          (ip ++ gs.flatMap bytesOfGroup) := by
  obtain ⟨gs, g, rfl⟩ := (List.eq_nil_or_concat' gs).resolve_left hgs
  rw [List.length_append, List.length_singleton] at hlen
  obtain ⟨m, hm⟩ : ∃ m, n - gs.length = m + 1 := ⟨n - gs.length - 1, by omega⟩
  have hrest : n - (gs ++ [g]).length = m := by
    rw [List.length_append, List.length_singleton]
    omega
  have hbytes : ip ++ (gs ++ [g]).flatMap bytesOfGroup
      = ip ++ gs.flatMap bytesOfGroup ++ bytesOfGroup g := by simp
  have hbytesLength : (ip ++ gs.flatMap bytesOfGroup ++ bytesOfGroup g).length
      = (ip ++ gs.flatMap bytesOfGroup).length + 2 := List.length_append
  rw [parseIPv6Groups_joinGroups_concat hlt (by omega), hm,
    parseIPv6Groups_ellipsis (hlt g (by simp)), hrest, hbytes, hbytesLength]

end Groups

/-! ### The run of zeros -/

/-- A run of zeros among eight groups, or none. -/
structure IsZeroRun (groups : List ℕ) (run : ℕ × ℕ) : Prop where
  le : run.1 ≤ run.2
  le_length : run.2 ≤ groups.length
  zeros : groups = groups.take run.1 ++ List.replicate (run.2 - run.1) 0 ++ groups.drop run.2

theorem replicate_zeroRun_append (groups : List ℕ) :
    List.replicate (zeroRun groups) 0 ++ groups.drop (zeroRun groups) = groups := by
  have hzeros : groups.takeWhile (· = 0) = List.replicate (zeroRun groups) 0 :=
    List.eq_replicate_iff.mpr ⟨rfl, fun g hg ↦ by simpa using List.mem_takeWhile_imp hg⟩
  have hmapped : groups.takeWhile (· = 0) = groups.take (zeroRun groups) :=
    List.prefix_iff_eq_take.mp (List.takeWhile_prefix _)
  rw [← hzeros, hmapped, List.take_append_drop]

theorem zeroRun_le_length (groups : List ℕ) : zeroRun groups ≤ groups.length :=
  (List.takeWhile_prefix _).length_le

theorem isZeroRun_longestZeroRun {groups : List ℕ} (hlen : groups.length = 8) :
    IsZeroRun groups (longestZeroRun groups) := by
  rw [longestZeroRun]
  refine List.foldlRecOn _ _ ⟨le_rfl, Nat.zero_le _, by simp⟩ fun run hrun i hi ↦ ?_
  simp only
  split_ifs
  · have hle := zeroRun_le_length (groups.drop i)
    rw [List.mem_range] at hi
    rw [List.length_drop] at hle
    refine ⟨Nat.le_add_right _ _, by omega, ?_⟩
    rw [Nat.add_sub_cancel_left, List.append_assoc, ← List.drop_drop, replicate_zeroRun_append,
      List.take_append_drop]
  · exact hrun

/-! ### The whole address -/

theorem length_v6Groups (ip : IP) : (v6Groups ip).length = ip.length / 2 := by
  fun_induction v6Groups ip with
  | case1 hi lo ip ih =>
    simp only [List.length_cons, ih]
    omega
  | case2 ip h =>
    rcases ip with _ | ⟨b, _ | ⟨b', ip⟩⟩
    · rfl
    · simp
    · exact absurd rfl (h b b' ip)

theorem lt_of_mem_v6Groups (ip : IP) : ∀ g ∈ v6Groups ip, g < 65536 := by
  fun_induction v6Groups ip with
  | case1 hi lo ip ih =>
    have hhi := hi.toNat_lt
    have hlo := lo.toNat_lt
    simp only [List.forall_mem_cons]
    exact ⟨by omega, ih⟩
  | case2 ip h => simp

theorem flatMap_bytesOfGroup_v6Groups {ip : IP} (heven : ip.length % 2 = 0) :
    (v6Groups ip).flatMap bytesOfGroup = ip := by
  fun_induction v6Groups ip with
  | case1 hi lo ip ih =>
    have hhi := hi.toNat_lt
    have hlo := lo.toNat_lt
    have hdiv : (hi.toNat * 256 + lo.toNat) / 256 = hi.toNat := by omega
    have hmod : (hi.toNat * 256 + lo.toNat) % 256 = lo.toNat := by omega
    simp only [List.length_cons] at heven
    rw [List.flatMap_cons, ih (by omega), bytesOfGroup, hdiv, hmod]
    simp
  | case2 ip h =>
    rcases ip with _ | ⟨b, _ | ⟨b', ip⟩⟩
    · rfl
    · simp at heven
    · exact absurd rfl (h b b' ip)

theorem length_flatMap_bytesOfGroup (gs : List ℕ) :
    (gs.flatMap bytesOfGroup).length = 2 * gs.length := by
  induction gs with
  | nil => rfl
  | cons g gs ih =>
    rw [List.flatMap_cons, List.length_append, ih, List.length_cons, bytesOfGroup]
    simp
    omega

theorem flatMap_bytesOfGroup_replicate (n : ℕ) :
    (List.replicate n 0).flatMap bytesOfGroup = List.replicate (2 * n) 0 := by
  induction n with
  | zero => rfl
  | succ n ih =>
    rw [List.replicate_succ, List.flatMap_cons, ih, Nat.mul_succ, Nat.add_comm, List.replicate_add]
    rfl

/-- Filling the gap restores the address. -/
theorem expandEllipsis_zeroRun {ip : IP} (hip : ip.length = 16) {run : ℕ × ℕ}
    (hrun : IsZeroRun (v6Groups ip) run) (hlt : run.1 < run.2) :
    expandEllipsis (((v6Groups ip).take run.1).flatMap bytesOfGroup
        ++ ((v6Groups ip).drop run.2).flatMap bytesOfGroup,
      some (((v6Groups ip).take run.1).flatMap bytesOfGroup).length) = some ip := by
  have hgroups : (v6Groups ip).length = 8 := by rw [length_v6Groups, hip]
  have hle := hrun.le_length
  have hbytes := congrArg (List.flatMap bytesOfGroup) hrun.zeros
  rw [flatMap_bytesOfGroup_v6Groups (by rw [hip]), List.flatMap_append, List.flatMap_append,
    flatMap_bytesOfGroup_replicate] at hbytes
  have htake := length_flatMap_bytesOfGroup ((v6Groups ip).take run.1)
  have hdrop := length_flatMap_bytesOfGroup ((v6Groups ip).drop run.2)
  rw [List.length_take] at htake
  rw [List.length_drop] at hdrop
  have hgap : 16 - (((v6Groups ip).take run.1).flatMap bytesOfGroup
      ++ ((v6Groups ip).drop run.2).flatMap bytesOfGroup).length = 2 * (run.2 - run.1) := by
    rw [List.length_append]
    omega
  rw [expandEllipsis, if_pos (by omega), hgap, List.take_left, List.drop_left, ← hbytes]

theorem parseIPv6_of_head {c : Char} (hc : c ≠ ':') (s : List Char) :
    parseIPv6 (c :: s) = (parseIPv6Groups 8 (c :: s) none []).bind expandEllipsis := by
  rw [parseIPv6]
  rintro t ht
  exact hc (List.cons.inj ht).1

theorem parseIPv6_joinGroups_ellipsis {front back : List ℕ} (hfront : ∀ g ∈ front, g < 65536)
    (hback : ∀ g ∈ back, g < 65536) (hlen : front.length + back.length ≤ 8) :
    parseIPv6 (joinGroups front ++ ':' :: ':' :: joinGroups back)
      = expandEllipsis (front.flatMap bytesOfGroup ++ back.flatMap bytesOfGroup,
        some (front.flatMap bytesOfGroup).length) := by
  have hnil : joinGroups back = [] ↔ back = [] := by
    refine ⟨fun h ↦ ?_, fun h ↦ by rw [h]; rfl⟩
    by_contra hne
    obtain ⟨c, t, hct, -⟩ := exists_joinGroups_eq_cons hback hne
    exact absurd (h ▸ hct) (by simp)
  by_cases hf : front = []
  · subst hf
    rw [joinGroups, List.nil_append, parseIPv6]
    by_cases hb : back = []
    · rw [if_pos (hnil.mpr hb), hb]
      rfl
    · rw [if_neg (hnil.not.mpr hb), parseIPv6Groups_joinGroups hback hb (by simpa using hlen)]
      rfl
  · obtain ⟨c, t, hct, hhex⟩ := exists_joinGroups_eq_cons hfront hf
    rw [hct, List.cons_append, parseIPv6_of_head (isHexDigit_ne_colon hhex), ← List.cons_append,
      ← hct, parseIPv6Groups_joinGroups_ellipsis hfront hf (by omega), List.nil_append]
    by_cases hb : back = []
    · rw [if_pos (hnil.mpr hb), hb, List.flatMap_nil, List.append_nil]
      rfl
    · rw [if_neg (hnil.not.mpr hb), parseIPv6Groups_joinGroups hback hb (by omega)]
      rfl

/-- **Round trip of an IPv6 address.** -/
theorem parseIPv6_v6String {ip : IP} (hip : ip.length = 16) :
    parseIPv6 (v6String ip) = some ip := by
  have hgroups : (v6Groups ip).length = 8 := by rw [length_v6Groups, hip]
  have hlt := lt_of_mem_v6Groups ip
  have hrun := isZeroRun_longestZeroRun hgroups
  rw [v6String]
  generalize longestZeroRun (v6Groups ip) = run at hrun
  by_cases heq : run.1 = run.2
  · have hne : v6Groups ip ≠ [] := by simp [← List.length_eq_zero_iff, hgroups]
    obtain ⟨c, t, hct, hhex⟩ := exists_joinGroups_eq_cons hlt hne
    rw [if_pos heq, hct, parseIPv6_of_head (isHexDigit_ne_colon hhex), ← hct,
      parseIPv6Groups_joinGroups hlt hne hgroups.le, flatMap_bytesOfGroup_v6Groups (by rw [hip])]
    simp [expandEllipsis, hip]
  · have hle := hrun.le
    have hroom : ((v6Groups ip).take run.1).length + ((v6Groups ip).drop run.2).length ≤ 8 := by
      rw [List.length_take, List.length_drop]
      omega
    rw [if_neg heq, parseIPv6_joinGroups_ellipsis (fun g hg ↦ hlt g (List.mem_of_mem_take hg))
      (fun g hg ↦ hlt g (List.mem_of_mem_drop hg)) hroom]
    exact expandEllipsis_zeroRun hip hrun (lt_of_le_of_ne hle heq)

/-! ## The family of a printed address -/

theorem not_separator_of_isHexDigit {c : Char} (h : isHexDigit c = true) :
    ¬(c = '.' ∨ c = ':' ∨ c = '%') := by
  rintro (rfl | rfl | rfl) <;> exact absurd h (by decide)

theorem isDigit_of_mem_itoa {n : ℕ} (hn : n < 1000) : ∀ c ∈ itoa n, isDigit c = true := by
  have hdigit (d : ℕ) (hd : d < 10) : isDigit (digitChar d) = true := (isDigit_digitChar ⟨d, hd⟩).1
  rw [itoa]
  split_ifs with h10 h100
  · simp [hdigit n h10]
  · simp [hdigit (n / 10) (by omega), hdigit (n % 10) (by omega)]
  · simp [hdigit (n / 100) (by omega), hdigit (n / 10 % 10) (by omega), hdigit (n % 10) (by omega)]

/-- An IPv4 address has a dot before any other separator. -/
theorem find?_v4String (a b c d : UInt8) :
    (v4String [a, b, c, d]).find? (fun c ↦ decide (c = '.' ∨ c = ':' ∨ c = '%')) = some '.' := by
  have hnone : (itoa a.toNat).find? (fun c ↦ decide (c = '.' ∨ c = ':' ∨ c = '%')) = none := by
    rw [List.find?_eq_none]
    intro x hx
    have hdigit := isDigit_of_mem_itoa (by have := a.toNat_lt; omega) x hx
    simpa using not_separator_of_isHexDigit (by simp [isHexDigit, hdigit])
  rw [v4String, List.find?_append, hnone]
  rfl

theorem mem_joinGroups {gs : List ℕ} (hlt : ∀ g ∈ gs, g < 65536) :
    ∀ c ∈ joinGroups gs, isHexDigit c = true ∨ c = ':' := by
  induction gs with
  | nil => simp [joinGroups]
  | cons g gs ih =>
    have hhex := (appendHex_spec (hlt g List.mem_cons_self)).1
    intro c hc
    by_cases hnil : gs = []
    · rw [hnil, joinGroups] at hc
      exact Or.inl (hhex c hc)
    · rw [joinGroups_cons hnil, List.mem_append, List.mem_cons] at hc
      rcases hc with hc | rfl | hc
      · exact Or.inl (hhex c hc)
      · exact Or.inr rfl
      · exact ih (fun g' hg' ↦ hlt g' (List.mem_cons_of_mem _ hg')) c hc

theorem mem_v6String (ip : IP) : ∀ c ∈ v6String ip, isHexDigit c = true ∨ c = ':' := by
  have hlt := lt_of_mem_v6Groups ip
  rw [v6String]
  intro c hc
  split_ifs at hc with heq
  · exact mem_joinGroups hlt c hc
  · rw [List.mem_append, List.mem_cons, List.mem_cons] at hc
    rcases hc with hc | rfl | rfl | hc
    · exact mem_joinGroups (fun g hg ↦ hlt g (List.mem_of_mem_take hg)) c hc
    · exact Or.inr rfl
    · exact Or.inr rfl
    · exact mem_joinGroups (fun g hg ↦ hlt g (List.mem_of_mem_drop hg)) c hc

theorem colon_mem_v6String {ip : IP} (hip : ip.length = 16) : ':' ∈ v6String ip := by
  have hgroups : (v6Groups ip).length = 8 := by rw [length_v6Groups, hip]
  rw [v6String]
  by_cases heq : (longestZeroRun (v6Groups ip)).1 = (longestZeroRun (v6Groups ip)).2
  · obtain ⟨g, gs, hgs⟩ := List.exists_cons_of_length_eq_add_one hgroups
    have hne : gs ≠ [] := by
      rintro rfl
      rw [hgs] at hgroups
      simp at hgroups
    rw [if_pos heq, hgs, joinGroups_cons hne]
    simp
  · rw [if_neg heq]
    simp

theorem find?_v6String {ip : IP} (hip : ip.length = 16) :
    (v6String ip).find? (fun c ↦ decide (c = '.' ∨ c = ':' ∨ c = '%')) = some ':' := by
  rcases hfind : (v6String ip).find? (fun c ↦ decide (c = '.' ∨ c = ':' ∨ c = '%')) with _ | c
  · rw [List.find?_eq_none] at hfind
    exact absurd (hfind ':' (colon_mem_v6String hip)) (by decide)
  · have hsep : c = '.' ∨ c = ':' ∨ c = '%' := by simpa using List.find?_some hfind
    rcases mem_v6String ip c (List.mem_of_find?_eq_some hfind) with hhex | rfl
    · exact absurd hsep (not_separator_of_isHexDigit hhex)
    · rfl

/-! ## Printing a network and parsing it again -/

theorem length_eq_four {l : IP} (h : l.length = 4) : ∃ a b c d, l = [a, b, c, d] := by
  rcases l with _ | ⟨a, _ | ⟨b, _ | ⟨c, _ | ⟨d, _ | ⟨e, l⟩⟩⟩⟩⟩ <;> simp at h
  exact ⟨a, b, c, d, rfl⟩

theorem IP.to4_of_length {ip : IP} (h : ip.length = 4) : ip.to4 = some ip := by
  rw [IP.to4, if_pos h]

theorem parseIP_string_v4 {ip : IP} (h : ip.length = 4) :
    parseIP ip.string = some (v4InV6Prefix ++ ip) ∧ addrBits ip.string = 32 := by
  obtain ⟨a, b, c, d, rfl⟩ := length_eq_four h
  rw [IP.string, IP.to4_of_length h]
  refine ⟨?_, by rw [addrBits, find?_v4String, if_pos rfl]⟩
  rw [parseIP, find?_v4String]
  simp only [if_true, parseIPv4Fields_v4String, Option.map_some]

theorem parseIP_string_v6 {ip : IP} (h : ip.length = 16) (hv6 : ip.to4 = none) :
    parseIP ip.string = some ip ∧ addrBits ip.string = 128 := by
  have hzone : '%' ∉ v6String ip := fun hmem ↦
    (mem_v6String ip '%' hmem).elim (absurd · (by decide)) (absurd · (by decide))
  rw [IP.string, hv6]
  refine ⟨?_, by rw [addrBits, find?_v6String h, if_neg (by decide)]⟩
  rw [parseIP, find?_v6String h]
  simp only [if_neg hzone, parseIPv6_v6String h, if_true, if_neg (show ':' ≠ '.' by decide)]

theorem dtoi_itoa : ∀ l : Fin 129, dtoi (itoa l) = some l.val := by
  decide +kernel

/-- A printed address and a printed length parse to the masked address. -/
theorem parseCIDR_append {addr : List Char} {ip : IP} {l : ℕ} (haddr : parseIP addr = some ip)
    (hl : l ≤ addrBits addr) (hbits : addrBits addr ≤ 128) :
    parseCIDR (addr ++ '/' :: itoa l)
      = some ⟨ip.mask (cidrMask l (addrBits addr)), cidrMask l (addrBits addr)⟩ := by
  have hslash : '/' ∉ addr := fun hmem ↦ absurd (parseIP_chars haddr '/' hmem) (by decide)
  rw [parseCIDR, if_neg (by simp), cut_append hslash]
  simp only [haddr, dtoi_itoa ⟨l, by omega⟩, if_pos hl]

theorem IP.mask_v4 {ip : IP} {mask : List UInt8} (hip : ip.length = 4) (hmask : mask.length = 4) :
    (v4InV6Prefix ++ ip).mask mask = List.zipWith (· &&& ·) ip mask := by
  have hlen : (v4InV6Prefix ++ ip).length = 16 := by rw [List.length_append, hip]; rfl
  have htake : (v4InV6Prefix ++ ip).take 12 = v4InV6Prefix := List.take_left' rfl
  have hdrop : (v4InV6Prefix ++ ip).drop 12 = ip := List.drop_left' rfl
  rw [IP.mask]
  simp [hlen, htake, hdrop, hip, hmask]

theorem IP.mask_v6 {ip : IP} {mask : List UInt8} (hip : ip.length = 16) (hmask : mask.length = 16) :
    ip.mask mask = List.zipWith (· &&& ·) ip mask := by
  rw [IP.mask]
  simp [hip, hmask]

/-- A network number and its mask, as they come out of `networkNumberAndMask`: the mask is a number
of leading ones, and the number has no bits beside them. -/
structure Proper (nn : IP) (mask : List UInt8) : Prop where
  /-- Four bytes, or sixteen that are not an IPv4 address. -/
  width : nn.length = 4 ∨ nn.length = 16 ∧ nn.to4 = none
  ones : ∃ l ≤ 8 * nn.length, mask = cidrMask l (8 * nn.length)
  masked : List.zipWith (· &&& ·) nn mask = nn

/-- A network whose number and mask are proper. -/
def IPNet.IsProper (n : IPNet) : Prop :=
  ∃ nn mask, n.networkNumberAndMask = some (nn, mask) ∧ Proper nn mask

theorem IPNet.contains_congr {n n' : IPNet} (h : n.networkNumberAndMask = n'.networkNumberAndMask)
    (ip : IP) : n.contains ip = n'.contains ip := by
  rw [IPNet.contains, IPNet.contains, h]

/-- **Round trip of a network.** Printing a proper network and parsing it again gives a network that
contains the same addresses. -/
theorem IPNet.IsProper.exists_parseCIDR_string {n : IPNet} (h : n.IsProper) :
    ∃ n', parseCIDR n.string = some n' ∧ ∀ ip, n'.contains ip = n.contains ip := by
  obtain ⟨nn, mask, hn, hproper⟩ := h
  obtain ⟨l, hl, rfl⟩ := hproper.ones
  have hmasked := hproper.masked
  -- the printed text leads to the number and the mask themselves
  suffices h : ∃ n', parseCIDR n.string = some n'
      ∧ n'.networkNumberAndMask = some (nn, cidrMask l (8 * nn.length)) by
    obtain ⟨n', hparse, hn'⟩ := h
    exact ⟨n', hparse, IPNet.contains_congr (hn'.trans hn.symm)⟩
  rw [IPNet.string, hn]
  rcases hproper.width with hlen | ⟨hlen, hv6⟩
  · rw [hlen] at hl hmasked ⊢
    obtain ⟨hparse, hbits⟩ := parseIP_string_v4 hlen
    have hcidr := parseCIDR_append (l := l) hparse (by omega) (by omega)
    rw [hbits, IP.mask_v4 hlen (length_cidrMask _ _), hmasked] at hcidr
    simp only [simpleMaskLength_v4 ⟨l, by omega⟩]
    refine ⟨_, hcidr, ?_⟩
    rw [IPNet.networkNumberAndMask, IP.to4_of_length hlen]
    simp [length_cidrMask]
  · rw [hlen] at hl hmasked ⊢
    obtain ⟨hparse, hbits⟩ := parseIP_string_v6 hlen hv6
    have hcidr := parseCIDR_append (l := l) hparse (by omega) (by omega)
    rw [hbits, IP.mask_v6 hlen (length_cidrMask _ _), hmasked] at hcidr
    simp only [simpleMaskLength_v6 ⟨l, by omega⟩]
    refine ⟨_, hcidr, ?_⟩
    rw [IPNet.networkNumberAndMask, hv6]
    simp [hlen, length_cidrMask]

/-! ## Parsed networks are proper -/

theorem length_parseIPv4Fields {s : List Char} {val digLen : ℕ} {fields ip : IP}
    (h : parseIPv4Fields s val digLen fields = some ip) (hlen : fields.length ≤ 3) :
    ip.length = 4 := by
  induction s generalizing val digLen fields with
  | nil =>
    rw [parseIPv4Fields] at h
    split_ifs at h with hlt
    cases h
    rw [List.length_append, List.length_singleton]
    omega
  | cons c s ih =>
    rw [parseIPv4Fields] at h
    split_ifs at h with _ _ _ _ _ hthree
    · exact ih h hlen
    · exact ih h (by rw [List.length_append, List.length_singleton]; omega)

theorem length_parseIPv6Groups {n : ℕ} {s : List Char} {e : Option ℕ} {ip : IP}
    {r : IP × Option ℕ} (h : parseIPv6Groups n s e ip = some r) (hlen : ip.length + 2 * n ≤ 16) :
    r.1.length ≤ 16 := by
  induction n generalizing s e ip with
  | zero => simp [parseIPv6Groups] at h
  | succ n ih =>
    have hgroup (ds : List Char) : (ip ++ groupBytes ds).length = ip.length + 2 := by
      rw [List.length_append]
      rfl
    rw [parseIPv6Groups] at h
    rcases hdrop : s.dropWhile isHexDigit with _ | ⟨c, s'⟩
    · simp only [hdrop] at h
      split_ifs at h
      cases h
      rw [hgroup]
      omega
    · simp only [hdrop] at h
      by_cases hdot : c = '.'
      · simp only [if_pos hdot] at h
        split_ifs at h with _ _ hroom
        obtain ⟨v4, hv4, rfl⟩ := Option.map_eq_some_iff.mp h
        rw [List.length_append, length_parseIPv4Fields hv4 (by simp)]
        omega
      · rcases s' with _ | ⟨c', s''⟩
        · simp only [if_neg hdot] at h
          split_ifs at h
        · simp only [if_neg hdot] at h
          split_ifs at h
          · cases h
            rw [hgroup]
            omega
          · exact ih h (by rw [hgroup]; omega)
          · exact ih h (by rw [hgroup]; omega)

theorem length_expandEllipsis {r : IP × Option ℕ} {ip : IP} (h : expandEllipsis r = some ip)
    (hlen : r.1.length ≤ 16) : ip.length = 16 := by
  rcases r with ⟨bytes, _ | e⟩
  · rw [expandEllipsis] at h
    split_ifs at h
    cases h
    simp only at hlen
    omega
  · rw [expandEllipsis] at h
    split_ifs at h
    cases h
    simp only [List.length_append, List.length_take, List.length_replicate, List.length_drop]
    omega

theorem length_parseIPv6 {s : List Char} {ip : IP} (h : parseIPv6 s = some ip) :
    ip.length = 16 := by
  have hgroups (s : List Char) (e : Option ℕ)
      (h : (parseIPv6Groups 8 s e []).bind expandEllipsis = some ip) : ip.length = 16 := by
    obtain ⟨r, hr, hexpand⟩ := Option.bind_eq_some_iff.mp h
    exact length_expandEllipsis hexpand (length_parseIPv6Groups hr le_rfl)
  rw [parseIPv6.eq_def] at h
  split at h
  · split_ifs at h
    · cases h
      exact List.length_replicate
    · exact hgroups _ _ h
  · exact hgroups _ _ h

/-- Parsing yields sixteen bytes. With a dot as the first separator they are an IPv4 address. -/
theorem parseIP_spec {s : List Char} {ip : IP} (h : parseIP s = some ip) :
    ip.length = 16 ∧ (addrBits s = 128
      ∨ addrBits s = 32 ∧ ∃ v4 : IP, v4.length = 4 ∧ ip = v4InV6Prefix ++ v4) := by
  rw [parseIP] at h
  rcases hfind : s.find? (fun c ↦ decide (c = '.' ∨ c = ':' ∨ c = '%')) with _ | c
  · rw [hfind] at h
    exact absurd h (by simp)
  · rw [hfind] at h
    rw [addrBits, hfind]
    simp only at h
    split_ifs at h with hdot hcolon
    · obtain ⟨v4, hv4, rfl⟩ := Option.map_eq_some_iff.mp h
      have hlen := length_parseIPv4Fields hv4 (by simp)
      refine ⟨?_, Or.inr ⟨by rw [hdot, if_pos rfl], v4, hlen, rfl⟩⟩
      rw [List.length_append, hlen]
      rfl
    · exact ⟨length_parseIPv6 h, Or.inl (by simp [hdot])⟩

theorem zipWith_and_idem (x m : List UInt8) :
    List.zipWith (· &&& ·) (List.zipWith (· &&& ·) x m) m = List.zipWith (· &&& ·) x m := by
  induction x generalizing m with
  | nil => simp
  | cons a x ih =>
    cases m with
    | nil => simp
    | cons b m => simp [ih, UInt8.and_assoc]

/-- Only a mask of at least 96 ones keeps the last byte of the IPv4 prefix. -/
theorem cidrMask_v6_of_prefix : ∀ l : Fin 129, (cidrMask l 128)[11]? = some 0xff →
    96 ≤ l.val ∧ (cidrMask l 128).drop 12 = cidrMask (l.val - 96) 32 := by
  decide +kernel

theorem isProper_mask_v4 {ip : IP} (hip : ip.length = 4) {l : ℕ} (hl : l ≤ 32) :
    (IPNet.mk ((v4InV6Prefix ++ ip).mask (cidrMask l 32)) (cidrMask l 32)).IsProper := by
  have hmask : (cidrMask l 32).length = 4 := length_cidrMask _ _
  rw [IP.mask_v4 hip hmask]
  set nn : IP := List.zipWith (· &&& ·) ip (cidrMask l 32) with hnn
  have hlen : nn.length = 4 := by rw [hnn, List.length_zipWith, hip, hmask]; rfl
  refine ⟨nn, cidrMask l 32, ?_, Or.inl hlen, ⟨l, ?_, ?_⟩, zipWith_and_idem _ _⟩
  · rw [IPNet.networkNumberAndMask, IP.to4_of_length hlen]
    simp [hmask]
  · rw [hlen]
    exact hl
  · rw [hlen]

/-- Masking sixteen bytes gives a proper network, of either width. -/
theorem isProper_mask_v6 {ip : IP} (hip : ip.length = 16) {l : ℕ} (hl : l ≤ 128) :
    (IPNet.mk (ip.mask (cidrMask l 128)) (cidrMask l 128)).IsProper := by
  have hmask : (cidrMask l 128).length = 16 := length_cidrMask _ _
  rw [IP.mask_v6 hip hmask]
  set nn : IP := List.zipWith (· &&& ·) ip (cidrMask l 128) with hnn
  have hlen : nn.length = 16 := by rw [hnn, List.length_zipWith, hip, hmask]; rfl
  have hmasked : List.zipWith (· &&& ·) nn (cidrMask l 128) = nn := zipWith_and_idem _ _
  rw [IPNet.IsProper, IPNet.networkNumberAndMask]
  rcases hto4 : nn.to4 with _ | v4
  · refine ⟨nn, cidrMask l 128, by simp [hlen, hmask], Or.inr ⟨hlen, hto4⟩, ⟨l, ?_, ?_⟩, hmasked⟩
    · rw [hlen]
      exact hl
    · rw [hlen]
  · -- the prefix survives the mask, so the mask covers it
    obtain ⟨hmapped, rfl⟩ : nn.take 12 = v4InV6Prefix ∧ nn.drop 12 = v4 := by
      rw [IP.to4, if_neg (by omega)] at hto4
      split_ifs at hto4 with h
      exact ⟨h.2, Option.some.inj hto4⟩
    have hbyte : nn[11]? = some 0xff := by
      have htake : (nn.take 12)[11]? = nn[11]? := by rw [List.getElem?_take, if_pos (by omega)]
      rw [← htake, hmapped]
      rfl
    obtain ⟨a, b, -, hb, hab⟩ : ∃ a b, ip[11]? = some a ∧ (cidrMask l 128)[11]? = some b
        ∧ a &&& b = 0xff := by
      simpa [hnn, List.getElem?_zipWith_eq_some] using hbyte
    obtain rfl : b = 0xff := (UInt8.and_eq_neg_one_iff.mp hab).2
    obtain ⟨h96, hdrop⟩ := cidrMask_v6_of_prefix ⟨l, by omega⟩ hb
    refine ⟨nn.drop 12, (cidrMask l 128).drop 12, by simp [hmask], Or.inl (by simp [hlen]),
      ⟨l - 96, ?_, ?_⟩, ?_⟩
    · rw [List.length_drop, hlen]
      omega
    · rw [List.length_drop, hlen]
      exact hdrop
    · rw [← List.drop_zipWith, hmasked]

/-- **Parsed networks are proper.** -/
theorem parseCIDR_isProper {s : List Char} {n : IPNet} (h : parseCIDR s = some n) : n.IsProper := by
  rw [parseCIDR] at h
  split_ifs at h
  rcases hip : parseIP (cut '/' s).1 with _ | ip
  · simp [hip] at h
  rcases hl : dtoi (cut '/' s).2 with _ | l
  · simp [hip, hl] at h
  simp only [hip, hl] at h
  split_ifs at h with hle
  cases h
  obtain ⟨hlen, hbits | ⟨hbits, v4, hv4, rfl⟩⟩ := parseIP_spec hip
  · rw [hbits] at hle ⊢
    exact isProper_mask_v6 hlen hle
  · rw [hbits] at hle ⊢
    exact isProper_mask_v4 hv4 hle

end Go
