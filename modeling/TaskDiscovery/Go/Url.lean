import TaskDiscovery.Go.Net

/-!
# The host of a URL

`net/url` enters the registry in one place: the host of an address that contains `://`. This file
embeds as much of `url.Parse` as decides whether parsing fails and which `URL.Host` it yields, and
`URL.Hostname` on the result. Paths, queries and user information matter only through the errors
they can raise.

The fact used later is negative. Text that starts with a host and a colon has no scheme, and a
relative reference may not have a colon in its first segment, so `url.Parse` rejects every
`host:port` (`parse_hostPort_eq_none`).
-/

namespace Go.Url

/-! ## Percent escapes -/

/-- Every `%` is followed by two hexadecimal digits. -/
def validEscapes : List Char → Bool
  | [] => true
  | '%' :: a :: b :: s => isHexDigit a && isHexDigit b && validEscapes s
  | '%' :: _ => false
  | _ :: s => validEscapes s

/-- The characters `shouldEscape` leaves alone in a host, beyond letters and digits. -/
def hostPunctuation : List Char :=
  ['!', '$', '&', '\'', '(', ')', '*', '+', ',', ';', '=', ':', '[', ']', '<', '>', '"',
    '-', '_', '.', '~']

def isAlpha (c : Char) : Bool :=
  decide ((65 ≤ c.toNat ∧ c.toNat ≤ 90) ∨ (97 ≤ c.toNat ∧ c.toNat ≤ 122))

/-- A character that may stand unescaped in a host. Code points outside ASCII are let through. -/
def hostChar (c : Char) : Bool :=
  decide (0x80 ≤ c.toNat) || isAlpha c || isDigit c || decide (c ∈ hostPunctuation)

/-- The bytes of an escaped host. In a host only bytes outside ASCII and `%25` may be escaped; in
a zone (`zone = true`) only a space, `%25` and what could stand there unescaped. -/
def unescapeBytes (zone : Bool) : List Char → Option (List UInt8)
  | [] => some []
  | '%' :: a :: b :: s =>
    let v := hexValue a * 16 + hexValue b
    if !(isHexDigit a && isHexDigit b) then none
    else if !zone && decide (v < 0x80) && decide ((a, b) ≠ ('2', '5')) then none
    else if zone && decide ((a, b) ≠ ('2', '5')) && decide (v ≠ 0x20)
        && !(decide (v < 0x80) && hostChar (Char.ofNat v)) then none
    else (unescapeBytes zone s).map (UInt8.ofNat v :: ·)
  | '%' :: _ => none
  | c :: s =>
    if hostChar c then (unescapeBytes zone s).map (String.utf8EncodeChar c ++ ·) else none

/-- `unescape` in host or zone mode. Text without `%` is only checked, never decoded. -/
def unescape (zone : Bool) (s : List Char) : Option (List Char) :=
  if '%' ∈ s then
    (unescapeBytes zone s).bind fun bytes ↦
      (ByteArray.mk bytes.toArray).utf8Decode?.map Array.toList
  else if s.all hostChar then some s else none

/-! ## Parsing -/

/-- `getScheme`: the scheme and the rest, or `none` for the error `missing protocol scheme`. -/
def getScheme (s : List Char) : Option (List Char × List Char) :=
  let schemeChar : Char → Bool := fun c ↦
    isAlpha c || isDigit c || decide (c = '+' ∨ c = '-' ∨ c = '.')
  match s with
  | [] => some ([], [])
  | ':' :: _ => none
  | c :: t =>
    if isAlpha c then
      match t.dropWhile schemeChar with
      | ':' :: rest => some (c :: t.takeWhile schemeChar, rest)
      | _ => some ([], s)
    else some ([], s)

/-- `validOptionalPort`: empty, or a colon and digits. -/
def validOptionalPort : List Char → Bool
  | [] => true
  | c :: s => decide (c = ':') && s.all isDigit

/-- The position-free form of `strings.Index(host, "%25")`: the text before it and from it on. -/
def cutZone : List Char → Option (List Char × List Char)
  | '%' :: '2' :: '5' :: s => some ([], '%' :: '2' :: '5' :: s)
  | [] => none
  | c :: s => (cutZone s).map fun p ↦ (c :: p.1, p.2)

def parseHost (host : List Char) : Option (List Char) :=
  if host.head? = some '[' then
    match cutLast ']' host with
    | none => none
    | some (lit, colonPort) =>
      if !validOptionalPort colonPort then none
      else
        match cutZone lit with
        | some (host1, host2) => do
          let h1 ← unescape false host1
          let h2 ← unescape true host2
          let h3 ← unescape false (']' :: colonPort)
          some (h1 ++ h2 ++ h3)
        | none => unescape false host
  else
    match cutLast ':' host with
    | some (_, port) => if port.all isDigit then unescape false host else none
    | none => unescape false host

def validUserinfo (s : List Char) : Bool :=
  s.all fun c ↦ isAlpha c || isDigit c
    || decide (c ∈ ['-', '.', '_', ':', '~', '!', '$', '&', '\'', '(', ')', '*', '+', ',', ';',
      '=', '%', '@'])

/-- `parseAuthority`, reduced to the host. -/
def parseAuthority (authority : List Char) : Option (List Char) :=
  match cutLast '@' authority with
  | none => parseHost authority
  | some (userinfo, hostPart) =>
    match parseHost hostPart with
    | none => none
    | some host => if validUserinfo userinfo && validEscapes userinfo then some host else none

/-- `parse` on text whose fragment has been cut off. The result is `URL.Host`. -/
def parseNoFragment (s : List Char) : Option (List Char) :=
  if s.any fun c ↦ decide (c.toNat < 0x20 ∨ c.toNat = 0x7f) then none
  else if s = ['*'] then some []
  else
    match getScheme s with
    | none => none
    | some (scheme, rest) =>
      let rest := (cut '?' rest).1
      if rest.head? ≠ some '/' ∧ scheme ≠ [] then some []
      else if rest.head? ≠ some '/' ∧ ':' ∈ (cut '/' rest).1 then none
      else if (scheme ≠ [] ∨ rest.take 3 ≠ ['/', '/', '/']) ∧ rest.take 2 = ['/', '/'] then
        match parseAuthority ((rest.drop 2).takeWhile (· ≠ '/')) with
        | none => none
        | some host =>
          if validEscapes ((rest.drop 2).dropWhile (· ≠ '/')) then some host else none
      else if validEscapes rest then some [] else none

/-- `url.Parse`, reduced to `URL.Host`; `none` is an error. -/
def parse (s : List Char) : Option (List Char) :=
  match parseNoFragment (cut '#' s).1 with
  | none => none
  | some host => if validEscapes (cut '#' s).2 then some host else none

/-- `URL.Hostname`: the host without its port and brackets. -/
def hostname (host : List Char) : List Char :=
  let h := match cutLast ':' host with
    | some (h, port) => if port.all isDigit then h else host
    | none => host
  if h.head? = some '[' ∧ h.getLast? = some ']' then h.tail.dropLast else h

/-! ## Text that is not a URL -/

theorem getScheme_of_not_isAlpha {c : Char} {s : List Char} (hc : isAlpha c = false)
    (hne : c ≠ ':') : getScheme (c :: s) = some ([], c :: s) := by
  rw [getScheme.eq_def]
  split
  · rename_i h; exact absurd h (by simp)
  · rename_i h
    exact absurd (List.cons.inj h).1 hne
  · rename_i x t _ h
    obtain ⟨rfl, rfl⟩ := List.cons.inj h
    simp [hc]

/-- **`host:port` is not a URL.** Text that starts with a non-letter, and has a colon before any
other separator of a URL, is neither absolute nor a valid relative reference. -/
theorem parse_hostPort_eq_none {c : Char} {a b : List Char} (hc : isAlpha c = false)
    (hne : c ≠ ':') (hsep : '/' ∉ c :: a ∧ '?' ∉ c :: a ∧ '#' ∉ c :: a) :
    parse (c :: a ++ ':' :: b) = none := by
  -- cutting at a separator that does not occur before the colon keeps the colon
  have hcut : ∀ (x : Char) (t : List Char), x ∉ c :: a → x ≠ ':' →
      (cut x (c :: a ++ ':' :: t)).1 = c :: a ++ ':' :: (cut x t).1 := by
    intro x t hx hx'
    have hsplit : c :: a ++ ':' :: t = (c :: a ++ [':']) ++ t := by simp
    rw [hsplit, cut_fst_append (by simpa [hx'] using hx)]
    simp
  have hnofrag : ∀ t, parseNoFragment (c :: a ++ ':' :: t) = none := by
    intro t
    rw [parseNoFragment]
    split_ifs with h1 h2
    · rfl
    · exact absurd (congrArg List.length h2) (by simp)
    · rw [List.cons_append, getScheme_of_not_isAlpha hc hne, ← List.cons_append]
      simp only
      rw [hcut '?' t hsep.2.1 (by decide), if_neg (by simp), if_pos]
      refine ⟨?_, ?_⟩
      · have : c ≠ '/' := fun h ↦ hsep.1 (h ▸ List.mem_cons_self)
        simpa using this
      · rw [hcut '/' _ hsep.1 (by decide)]
        simp
  rw [parse, hcut '#' b hsep.2.2 (by decide), hnofrag]

end Go.Url
