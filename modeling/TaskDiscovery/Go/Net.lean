import TaskDiscovery.Go.Strings

/-!
# Addresses of the `net` package

Textual addresses reach the service in four shapes: `ip:port`, `[v6]:port`, a bare address, and a
URL. This file embeds `net.SplitHostPort`, `net.JoinHostPort` and `net.ParseIP` on code points, and
the comparison of `net.IP` values that firewall rules rest on.

An `IP` is its byte string, four or sixteen bytes long, exactly as in Go. Parsing always yields the
sixteen-byte form, and comparing the two forms of one IPv4 address is the business of `IP.equal`
and `IPNet.contains`.

## What the parser is used for

Two readers extract a host from the same text by different routes. Relating them needs only the
alphabet of a parsed address (`parseIP_chars`) and, where no colon occurs, its first character
(`parseIP_head_isDigit`). Both are inductions over the scanning loops.
-/

namespace Go

/-! ## Byte addresses -/

/-- A `net.IP`: four or sixteen bytes in network order. -/
abbrev IP := List UInt8

/-- The first twelve bytes of an IPv4 address in sixteen-byte form. -/
def v4InV6Prefix : IP := [0, 0, 0, 0, 0, 0, 0, 0, 0, 0, 0xff, 0xff]

/-- `IP.To4`: the four-byte form, when there is one. -/
def IP.to4 (ip : IP) : Option IP :=
  if ip.length = 4 then some ip
  else if ip.length = 16 ∧ ip.take 12 = v4InV6Prefix then some (ip.drop 12)
  else none

/-- `IP.Equal`: an IPv4 address and its sixteen-byte form are the same address. -/
def IP.equal (ip x : IP) : Bool :=
  if ip.length = x.length then decide (ip = x)
  else if ip.length = 4 ∧ x.length = 16 then decide (x.take 12 = v4InV6Prefix ∧ ip = x.drop 12)
  else if ip.length = 16 ∧ x.length = 4 then decide (ip.take 12 = v4InV6Prefix ∧ ip.drop 12 = x)
  else false

/-- A `net.IPNet`: a network number and a mask. -/
structure IPNet where
  ip : IP
  mask : List UInt8
  deriving DecidableEq, Repr

/-- `networkNumberAndMask`: both in the same width, or nothing. -/
def IPNet.networkNumberAndMask (n : IPNet) : Option (IP × List UInt8) :=
  match n.ip.to4 with
  | some ip =>
    if n.mask.length = 4 then some (ip, n.mask)
    else if n.mask.length = 16 then some (ip, n.mask.drop 12)
    else none
  | none =>
    if n.ip.length = 16 ∧ n.mask.length = 16 then some (n.ip, n.mask) else none

def IPNet.contains (n : IPNet) (ip : IP) : Bool :=
  let x := ip.to4.getD ip
  match n.networkNumberAndMask with
  | some (nn, m) =>
    decide (x.length = nn.length ∧ List.zipWith (· &&& ·) nn m = List.zipWith (· &&& ·) x m)
  -- a nil network number has length zero, and only an empty address has that length
  | none => decide (x = [])

/-! ## Parsing addresses -/

def isDigit (c : Char) : Bool := decide (48 ≤ c.toNat ∧ c.toNat ≤ 57)

def isHexDigit (c : Char) : Bool :=
  isDigit c || decide (97 ≤ c.toNat ∧ c.toNat ≤ 102) || decide (65 ≤ c.toNat ∧ c.toNat ≤ 70)

def hexValue (c : Char) : ℕ :=
  if isDigit c then c.toNat - 48 else if c.toNat ≤ 70 then c.toNat - 55 else c.toNat - 87

/-- The scanning loop of `parseIPv4Fields`, carrying the octet under construction, the number of
its digits, and the finished octets. -/
def parseIPv4Fields : List Char → ℕ → ℕ → IP → Option IP
  | [], val, _, fields => if fields.length < 3 then none else some (fields ++ [UInt8.ofNat val])
  | c :: s, val, digLen, fields =>
    if isDigit c then
      if digLen = 1 ∧ val = 0 then none
      else if 255 < val * 10 + (c.toNat - 48) then none
      else parseIPv4Fields s (val * 10 + (c.toNat - 48)) (digLen + 1) fields
    else if c = '.' then
      if digLen = 0 ∨ s = [] then none
      else if fields.length = 3 then none
      else parseIPv4Fields s 0 0 (fields ++ [UInt8.ofNat val])
    else none

def groupBytes (ds : List Char) : IP :=
  let acc := ds.foldl (fun acc c ↦ acc * 16 + hexValue c) 0
  [UInt8.ofNat (acc / 256), UInt8.ofNat (acc % 256)]

/-- The group loop of `parseIPv6`. The first argument counts the groups there is still room for;
`ellipsis` is the byte position of `::`. -/
def parseIPv6Groups : ℕ → List Char → Option ℕ → IP → Option (IP × Option ℕ)
  | 0, _, _, _ => none
  | n + 1, s, ellipsis, ip =>
    let ds := s.takeWhile isHexDigit
    if ds = [] ∨ 4 < ds.length then none
    else
      match s.dropWhile isHexDigit with
      | [] => some (ip ++ groupBytes ds, ellipsis)
      | c :: s' =>
        if c = '.' then
          if ellipsis = none ∧ ip.length ≠ 12 then none
          else if 16 < ip.length + 4 then none
          else (parseIPv4Fields s 0 0 []).map fun v4 ↦ (ip ++ v4, ellipsis)
        else if c = ':' then
          match s' with
          | [] => none
          | c' :: s'' =>
            if c' = ':' then
              if ellipsis.isSome then none
              else if s'' = [] then some (ip ++ groupBytes ds, some (ip.length + 2))
              else parseIPv6Groups n s'' (some (ip.length + 2)) (ip ++ groupBytes ds)
            else parseIPv6Groups n s' ellipsis (ip ++ groupBytes ds)
        else none

/-- Fill the gap that `::` stands for. -/
def expandEllipsis : IP × Option ℕ → Option IP
  | (ip, none) => if ip.length < 16 then none else some ip
  | (ip, some e) =>
    if ip.length < 16 then some (ip.take e ++ List.replicate (16 - ip.length) 0 ++ ip.drop e)
    else none

/-- `netip.parseIPv6` on text without a zone. -/
def parseIPv6 : List Char → Option IP
  | ':' :: ':' :: s =>
    if s = [] then some (List.replicate 16 0)
    else (parseIPv6Groups 8 s (some 0) []).bind expandEllipsis
  | s => (parseIPv6Groups 8 s none []).bind expandEllipsis

/-- `net.ParseIP`. The first separator decides the family, and an address with a zone is
rejected. -/
def parseIP (s : List Char) : Option IP :=
  match s.find? fun c ↦ decide (c = '.' ∨ c = ':' ∨ c = '%') with
  | none => none
  | some c =>
    if c = '.' then (parseIPv4Fields s 0 0 []).map (v4InV6Prefix ++ ·)
    else if c = ':' then if '%' ∈ s then none else parseIPv6 s
    else none

/-! ### The alphabet of an address -/

/-- The characters a parsed address consists of. -/
def isAddrChar (c : Char) : Bool := isHexDigit c || decide (c = ':') || decide (c = '.')

theorem isAddrChar_of_isDigit {c : Char} (h : isDigit c = true) : isAddrChar c = true := by
  simp [isAddrChar, isHexDigit, h]

theorem isSpace_of_isAddrChar {c : Char} (h : isAddrChar c = true) : isSpace c = false := by
  simp only [isAddrChar, isHexDigit, isDigit, Bool.or_eq_true, decide_eq_true_eq] at h
  have key : c.toNat = 46 ∨ (48 ≤ c.toNat ∧ c.toNat ≤ 58) ∨ (65 ≤ c.toNat ∧ c.toNat ≤ 70)
      ∨ (97 ≤ c.toNat ∧ c.toNat ≤ 102) := by
    rcases h with (((h | h) | h) | rfl) | rfl
    · omega
    · omega
    · omega
    · right; left; decide
    · left; decide
  simp only [isSpace, Bool.or_eq_false_iff, Bool.and_eq_false_iff, decide_eq_false_iff_not,
    beq_eq_false_iff_ne]
  omega

theorem parseIPv4Fields_chars {s : List Char} :
    ∀ {val digLen : ℕ} {fields ip : IP}, parseIPv4Fields s val digLen fields = some ip →
      ∀ c ∈ s, isAddrChar c = true := by
  induction s with
  | nil => intro _ _ _ _ _ c hc; simp at hc
  | cons x s ih =>
    intro val digLen fields ip h
    rw [parseIPv4Fields] at h
    have hx : isAddrChar x = true ∧ ∀ c ∈ s, isAddrChar c = true := by
      by_cases hd : isDigit x = true
      · rw [if_pos hd] at h
        split_ifs at h
        exact ⟨isAddrChar_of_isDigit hd, ih h⟩
      · rw [if_neg hd] at h
        by_cases hdot : x = '.'
        · rw [if_pos hdot] at h
          split_ifs at h
          exact ⟨by simp [isAddrChar, hdot], ih h⟩
        · rw [if_neg hdot] at h
          exact absurd h (by simp)
    intro c hc
    rcases List.mem_cons.mp hc with rfl | hc
    · exact hx.1
    · exact hx.2 c hc

theorem parseIPv4Fields_head {s : List Char} {ip : IP} (h : parseIPv4Fields s 0 0 [] = some ip) :
    ∃ c t, s = c :: t ∧ isDigit c = true := by
  cases s with
  | nil => simp [parseIPv4Fields] at h
  | cons c t =>
    refine ⟨c, t, rfl, ?_⟩
    by_contra hd
    rw [parseIPv4Fields, if_neg hd] at h
    by_cases hdot : c = '.'
    · rw [if_pos hdot, if_pos (Or.inl rfl)] at h
      exact absurd h (by simp)
    · rw [if_neg hdot] at h
      exact absurd h (by simp)

theorem parseIPv6Groups_chars :
    ∀ {n : ℕ} {s : List Char} {e : Option ℕ} {ip : IP} {r : IP × Option ℕ},
      parseIPv6Groups n s e ip = some r → ∀ c ∈ s, isAddrChar c = true := by
  intro n
  induction n with
  | zero => intro _ _ _ _ h; simp [parseIPv6Groups] at h
  | succ n ih =>
    intro s e ip r h
    have hsplit : s.takeWhile isHexDigit ++ s.dropWhile isHexDigit = s :=
      List.takeWhile_append_dropWhile
    have hhex : ∀ c ∈ s.takeWhile isHexDigit, isAddrChar c = true := fun c hc ↦ by
      simp [isAddrChar, List.mem_takeWhile_imp hc]
    rw [parseIPv6Groups] at h
    -- the digits of the group are in the alphabet; the rest is what follows the group
    suffices hrest : ∀ c ∈ s.dropWhile isHexDigit, isAddrChar c = true by
      intro c hc
      rw [← hsplit, List.mem_append] at hc
      exact hc.elim (hhex c) (hrest c)
    have hcolon : isAddrChar ':' = true := by decide
    by_cases hds : s.takeWhile isHexDigit = [] ∨ 4 < (s.takeWhile isHexDigit).length
    · rw [if_pos hds] at h
      exact absurd h (by simp)
    rw [if_neg hds] at h
    rcases hdrop : s.dropWhile isHexDigit with _ | ⟨x, s'⟩
    · simp
    · rw [hdrop] at h
      simp only at h
      by_cases hdot : x = '.'
      · rw [if_pos hdot] at h
        split_ifs at h
        obtain ⟨v4, hv4, -⟩ := Option.map_eq_some_iff.mp h
        intro c hc
        exact parseIPv4Fields_chars hv4 c (hsplit ▸ List.mem_append_right _ (hdrop ▸ hc))
      · rw [if_neg hdot] at h
        by_cases hx : x = ':'
        · rw [if_pos hx] at h
          have hs' : ∀ c ∈ s', isAddrChar c = true := by
            cases s' with
            | nil => simp
            | cons y s'' =>
              simp only at h
              by_cases hy : y = ':'
              · rw [if_pos hy] at h
                have hs'' : ∀ c ∈ s'', isAddrChar c = true := by
                  split_ifs at h with h1 h2
                  · simp [h2]
                  · exact ih h
                intro c hc
                rcases List.mem_cons.mp hc with rfl | hc
                · rw [hy]; exact hcolon
                · exact hs'' c hc
              · rw [if_neg hy] at h
                exact ih h
          intro c hc
          rcases List.mem_cons.mp hc with rfl | hc
          · rw [hx]; exact hcolon
          · exact hs' c hc
        · rw [if_neg hx] at h
          exact absurd h (by simp)

theorem parseIPv6_chars {s : List Char} {ip : IP} (h : parseIPv6 s = some ip) :
    ∀ c ∈ s, isAddrChar c = true := by
  have hcolon : isAddrChar ':' = true := by decide
  rw [parseIPv6.eq_def] at h
  split at h
  · rename_i t
    have ht : ∀ c ∈ t, isAddrChar c = true := by
      split_ifs at h with hnil
      · simp [hnil]
      · obtain ⟨r, hr, -⟩ := Option.bind_eq_some_iff.mp h
        exact parseIPv6Groups_chars hr
    intro c hc
    rcases List.mem_cons.mp hc with rfl | hc
    · exact hcolon
    · rcases List.mem_cons.mp hc with rfl | hc
      · exact hcolon
      · exact ht c hc
  · obtain ⟨r, hr, -⟩ := Option.bind_eq_some_iff.mp h
    exact parseIPv6Groups_chars hr

/-- **The alphabet of an address.** Every character of text that parses is a hexadecimal digit, a
colon or a dot. -/
theorem parseIP_chars {s : List Char} {ip : IP} (h : parseIP s = some ip) :
    ∀ c ∈ s, isAddrChar c = true := by
  rw [parseIP] at h
  split at h
  · exact absurd h (by simp)
  · split_ifs at h
    · obtain ⟨v4, hv4, -⟩ := Option.map_eq_some_iff.mp h
      exact parseIPv4Fields_chars hv4
    · exact parseIPv6_chars h

/-- An address without a colon is in dotted form, hence starts with a digit. -/
theorem parseIP_head_isDigit {s : List Char} {ip : IP} (h : parseIP s = some ip)
    (hs : ':' ∉ s) : ∃ c t, s = c :: t ∧ isDigit c = true := by
  rw [parseIP] at h
  split at h
  · exact absurd h (by simp)
  · rename_i x hx
    split_ifs at h with h1 h2
    · obtain ⟨v4, hv4, -⟩ := Option.map_eq_some_iff.mp h
      exact parseIPv4Fields_head hv4
    · exact absurd (h2 ▸ List.mem_of_find?_eq_some hx) hs

theorem parseIP_ne_nil {s : List Char} {ip : IP} (h : parseIP s = some ip) : s ≠ [] := by
  rintro rfl
  simp [parseIP] at h

/-! ## Host and port -/

/-- `net.SplitHostPort`. A bracketed host ends at its first `]`, which must stand just before the
last colon; an unbracketed host has no colon. -/
def splitHostPort (s : List Char) : Option (List Char × List Char) :=
  match cutLast ':' s with
  | none => none
  | some (h, port) =>
    if s.head? = some '[' then
      if h.idxOf ']' + 1 ≠ h.length then none
      else if '[' ∈ s.tail ∨ ']' ∈ port then none
      else some (h.tail.dropLast, port)
    else if ':' ∈ h then none
    else if '[' ∈ s ∨ ']' ∈ s then none
    else some (h, port)

/-- `net.JoinHostPort`: a host with a colon is bracketed. -/
def joinHostPort (host port : List Char) : List Char :=
  if ':' ∈ host then '[' :: host ++ ']' :: ':' :: port else host ++ ':' :: port

theorem splitHostPort_plain {h port : List Char} (hc : ':' ∉ h) (hb : '[' ∉ h ∧ ']' ∉ h)
    (hp : ':' ∉ port ∧ '[' ∉ port ∧ ']' ∉ port) :
    splitHostPort (h ++ ':' :: port) = some (h, port) := by
  have hhead : ¬(h ++ ':' :: port).head? = some '[' := by
    cases h with
    | nil => simp
    | cons c h =>
      rw [List.mem_cons, not_or] at hb
      simpa using Ne.symm hb.1.1
  have hbr : ¬('[' ∈ h ++ ':' :: port ∨ ']' ∈ h ++ ':' :: port) := by
    simp [hb.1, hb.2, hp.2.1, hp.2.2]
  rw [splitHostPort, cutLast_append hp.1]
  simp only
  rw [if_neg hhead, if_neg hc, if_neg hbr]

theorem splitHostPort_bracketed {h port : List Char} (hb : '[' ∉ h ∧ ']' ∉ h)
    (hp : ':' ∉ port ∧ '[' ∉ port ∧ ']' ∉ port) :
    splitHostPort ('[' :: h ++ ']' :: ':' :: port) = some (h, port) := by
  have hform : '[' :: h ++ ']' :: ':' :: port = ('[' :: h ++ [']']) ++ ':' :: port := by simp
  have hidx : ('[' :: h ++ [']']).idxOf ']' + 1 = ('[' :: h ++ [']']).length := by
    rw [List.idxOf_append_of_notMem (by simp [hb.2])]
    simp
  have hbr : ¬('[' ∈ (('[' :: h ++ [']']) ++ ':' :: port).tail ∨ ']' ∈ port) := by
    simp [hb.1, hp.2.1, hp.2.2]
  rw [hform, splitHostPort, cutLast_append hp.1]
  simp only
  rw [if_pos (by simp), if_neg (by rw [hidx]; simp), if_neg hbr]
  simp

/-- The two shapes of text that `splitHostPort` accepts. -/
theorem splitHostPort_eq_some {s h port : List Char} (hs : splitHostPort s = some (h, port)) :
    ('[' ∉ h ∧ ']' ∉ h) ∧ (':' ∉ port ∧ '[' ∉ port ∧ ']' ∉ port)
      ∧ ((':' ∉ h ∧ s = h ++ ':' :: port) ∨ s = '[' :: h ++ ']' :: ':' :: port) := by
  rw [splitHostPort] at hs
  rcases hcut : cutLast ':' s with _ | ⟨h0, p0⟩
  · rw [hcut] at hs
    exact absurd hs (by simp)
  · rw [hcut] at hs
    simp only at hs
    obtain ⟨rfl, hport⟩ := cutLast_eq_some hcut
    by_cases hhead : (h0 ++ ':' :: p0).head? = some '['
    · rw [if_pos hhead] at hs
      by_cases hidx : h0.idxOf ']' + 1 ≠ h0.length
      · rw [if_pos hidx] at hs
        exact absurd hs (by simp)
      rw [if_neg hidx, not_not] at *
      by_cases hbr : '[' ∈ (h0 ++ ':' :: p0).tail ∨ ']' ∈ p0
      · rw [if_pos hbr] at hs
        exact absurd hs (by simp)
      rw [if_neg hbr, Option.some.injEq, Prod.mk.injEq] at hs
      obtain ⟨rfl, rfl⟩ := hs
      rw [not_or] at hbr
      -- the first `]` is the last character before the colon
      obtain ⟨u, rfl⟩ : ∃ u, h0 = u ++ [']'] := by
        have hlt : h0.idxOf ']' < h0.length := by omega
        refine ⟨h0.dropLast, ?_⟩
        have hne : h0 ≠ [] := by rintro rfl; simp at hlt
        conv_lhs => rw [← List.dropLast_append_getLast hne]
        congr 2
        rw [List.getLast_eq_getElem]
        have : h0.length - 1 = h0.idxOf ']' := by omega
        simp [this]
      have hu : ']' ∉ u := by
        intro hu
        rw [List.idxOf_append_of_mem hu] at hidx
        have := List.idxOf_lt_length_iff.mpr hu
        simp only [List.length_append, List.length_singleton] at hidx
        omega
      cases u with
      | nil => simp at hhead
      | cons c v =>
        obtain rfl : c = '[' := by simpa using hhead
        rw [List.mem_cons, not_or] at hu
        simp only [List.cons_append, List.tail_cons, List.append_assoc, List.mem_append,
          List.mem_cons, not_or] at hbr
        have hhost : (('[' :: v) ++ [']']).tail.dropLast = v := by simp
        rw [hhost]
        exact ⟨⟨hbr.1.1, hu.2⟩, ⟨hport, hbr.1.2.2.2.2, hbr.2⟩, Or.inr (by simp)⟩
    · rw [if_neg hhead] at hs
      by_cases hc : ':' ∈ h0
      · rw [if_pos hc] at hs
        exact absurd hs (by simp)
      rw [if_neg hc] at hs
      by_cases hbr : '[' ∈ h0 ++ ':' :: p0 ∨ ']' ∈ h0 ++ ':' :: p0
      · rw [if_pos hbr] at hs
        exact absurd hs (by simp)
      rw [if_neg hbr, Option.some.injEq, Prod.mk.injEq] at hs
      obtain ⟨rfl, rfl⟩ := hs
      simp only [List.mem_append, List.mem_cons, not_or] at hbr
      exact ⟨⟨hbr.1.1, hbr.2.1⟩, ⟨hport, hbr.1.2.2, hbr.2.2.2⟩, Or.inl ⟨hc, rfl⟩⟩

end Go
