import Mathlib.Data.List.Basic

/-!
# Taking a URL apart

`urlsplit`: the scheme, the authority, the path, the query and the fragment of a URL,
on text as a list of characters. It takes white space and control characters off the
front and tabs and line breaks out of the whole. It refuses an authority with one bracket
and not the other, with anything in brackets that is no IPv6 address, and with a
character that normalisation turns into a delimiter.

Where the authority is plain, the path is what follows it up to a `?` or `#`.
-/

namespace Urlsplit

/-! ## Addresses in brackets -/

def isHexDigit (c : Char) : Bool := c.isDigit || ('a' ≤ c && c ≤ 'f') || ('A' ≤ c && c ≤ 'F')

def isHextet (s : List Char) : Bool := s ≠ [] && s.length ≤ 4 && s.all isHexDigit

/-- At most three digits, of a value below 256, without a zero in front. -/
def isOctet (s : List Char) : Bool :=
  s ≠ [] && s.length ≤ 3 && s.all Char.isDigit && (s = ['0'] || s.head? ≠ some '0')
    && s.foldl (fun n c => 10 * n + (c.toNat - 48)) 0 ≤ 255

/-- `ipaddress.IPv4Address(s)` does not raise. -/
def isIPv4 (s : List Char) : Bool := (s.splitOn '.').length = 4 && (s.splitOn '.').all isOctet

/-- The parts of an IPv6 address, an IPv4 suffix as two of them. -/
def hextets? (address : List Char) : Option (List (List Char)) :=
  let parts := address.splitOn ':'
  if parts.length < 3 then none
  else if '.' ∈ parts.getLastD [] then
    if isIPv4 (parts.getLastD []) then some (parts.dropLast ++ [['0'], ['0']]) else none
  else some parts

/-- The parts are eight hextets, or fewer with one `::` for those left out. -/
def isParts (parts : List (List Char)) : Bool :=
  let inner := parts.tail.dropLast
  if 9 < parts.length ∨ 1 < inner.count [] then false
  else if [] ∈ inner then
    let skip := 1 + inner.idxOf []
    let hi := parts.take skip
    let lo := parts.drop (skip + 1)
    -- a part left out at either end is all there is on that side
    (hi = [[]] || hi.all isHextet) && (lo = [[]] || lo.all isHextet)
      && (hi.filter (· ≠ [])).length + (lo.filter (· ≠ [])).length < 8
  else parts.length = 8 && parts.all isHextet

/-- `ipaddress.IPv6Address(s)` does not raise. -/
def isIPv6 (s : List Char) : Bool :=
  let address := s.takeWhile (· ≠ '%')
  let scopeId := (s.dropWhile (· ≠ '%')).tail
  '/' ∉ s && ('%' ∉ s || (scopeId ≠ [] && '%' ∉ scopeId)) && (hextets? address).any isParts

/-- A `v`, hexadecimal digits, a point, and more on the same line. -/
def isIPvFuture (s : List Char) : Bool :=
  match s with
  | 'v' :: s =>
      s.takeWhile isHexDigit ≠ [] && ((s.dropWhile isHexDigit).head? = some '.')
        && (s.dropWhile isHexDigit).tail ≠ [] && '\n' ∉ (s.dropWhile isHexDigit).tail
  | _ => false

/-- `_check_bracketed_host` does not raise. -/
def isBracketedHost (hostname : List Char) : Bool :=
  if hostname.head? = some 'v' then isIPvFuture hostname else isIPv6 hostname

/-- `_check_bracketed_netloc` does not raise. -/
def isBracketedNetloc (netloc : List Char) : Bool :=
  -- what is before the last `@` is a user
  let hostnameAndPort := (netloc.reverse.takeWhile (· ≠ '@')).reverse
  if '[' ∈ hostnameAndPort then
    let bracketed := (hostnameAndPort.dropWhile (· ≠ '[')).tail
    let port := (bracketed.dropWhile (· ≠ ']')).tail
    hostnameAndPort.head? = some '[' && (port = [] || port.head? = some ':')
      && isBracketedHost (bracketed.takeWhile (· ≠ ']'))
  else isBracketedHost (hostnameAndPort.takeWhile (· ≠ ':'))

/-! ## The parts of a URL -/

/-- The characters whose normal form under NFKC has one of `/?#@:` in it. -/
def delimiting : List Nat :=
  [0x2047, 0x2048, 0x2049, 0x2100, 0x2101, 0x2105, 0x2106, 0x2A74, 0xFE13, 0xFE16, 0xFE55, 0xFE56,
    0xFE5F, 0xFE6B, 0xFF03, 0xFF0F, 0xFF1A, 0xFF1F, 0xFF20]

/-- The authority is let through. -/
def isNetloc (netloc : List Char) : Bool :=
  decide ('[' ∈ netloc ↔ ']' ∈ netloc) && ('[' ∉ netloc || isBracketedNetloc netloc)
    && netloc.all fun c => c.toNat ∉ delimiting

/-- What `urlsplit` works on: the front stripped, tabs and line breaks taken out. -/
def cleaned (url : List Char) : List Char :=
  (url.dropWhile fun c => c.toNat ≤ 32).filter fun c => c ∉ ['\t', '\r', '\n']

/-- The scheme, if there is one, and what follows its colon. -/
def splitScheme (url : List Char) : List Char × List Char :=
  let scheme := url.takeWhile (· ≠ ':')
  if ':' ∈ url ∧ scheme.head?.any Char.isAlpha
      ∧ scheme.all fun c => c.isAlphanum || c ∈ ['+', '-', '.'] then
    (scheme.map Char.toLower, url.drop (scheme.length + 1))
  else ([], url)

/-- `_splitnetloc`, where there are two slashes. -/
def splitNetloc : List Char → List Char × List Char
  | '/' :: '/' :: url =>
      (url.takeWhile fun c => c ∉ ['/', '?', '#'], url.dropWhile fun c => c ∉ ['/', '?', '#'])
  | url => ([], url)

/-- What comes before the fragment and the query. -/
def pathOf (url : List Char) : List Char := (url.takeWhile (· ≠ '#')).takeWhile (· ≠ '?')

structure SplitResult where
  scheme : List Char
  netloc : List Char
  path : List Char
  query : List Char
  fragment : List Char
  deriving DecidableEq, Repr

/-- `urlsplit(url)`; `none` is `ValueError`. -/
def split? (url : List Char) : Option SplitResult :=
  let (scheme, url) := splitScheme (cleaned url)
  let (netloc, url) := splitNetloc url
  if isNetloc netloc then
    some
      { scheme := scheme
        netloc := netloc
        path := pathOf url
        query := ((url.takeWhile (· ≠ '#')).dropWhile (· ≠ '?')).tail
        fragment := (url.dropWhile (· ≠ '#')).tail }
  else none

theorem pathOf_append_query (path query : List Char) :
    pathOf (path ++ '?' :: query) = pathOf path := by
  induction path with
  | nil => rfl
  | cons c path ih =>
      unfold pathOf at ih ⊢
      by_cases hfragment : c = '#'
      · simp [hfragment]
      · by_cases hquery : c = '?'
        · simp [hquery]
        · simpa [hfragment, hquery] using ih

/-! ## A plain authority -/

/-- ASCII without brackets and without the characters that end an authority. -/
def IsBare (host : List Char) : Prop :=
  ∀ c ∈ host, c.toNat < 128 ∧ c ∉ ['/', '?', '#', '[', ']']

instance (host : List Char) : Decidable (IsBare host) :=
  List.decidableBAll (fun c : Char => c.toNat < 128 ∧ c ∉ ['/', '?', '#', '[', ']']) host

theorem isNetloc_of_isBare {host : List Char} (h : IsBare host) : isNetloc host = true := by
  have hopen : '[' ∉ host := fun hm => absurd (by simp) (h _ hm).2
  have hclose : ']' ∉ host := fun hm => absurd (by simp) (h _ hm).2
  have hascii : host.all (fun c => c.toNat ∉ delimiting) = true := by
    rw [List.all_eq_true]
    intro c hc
    -- no ASCII character is among those
    have hlarge : ∀ n ∈ delimiting, 128 ≤ n := by decide
    exact decide_eq_true fun hm => absurd (hlarge _ hm) (Nat.not_le.mpr (h c hc).1)
  rw [isNetloc, hascii, Bool.and_true]
  simp [hopen, hclose]

theorem IsBare.filter {host : List Char} (h : IsBare host) (p : Char → Bool) :
    IsBare (host.filter p) := fun c hc => h c (List.mem_of_mem_filter hc)

/-- A slash, a plain host and a path: the host ends where the path begins. -/
theorem splitNetloc_of_isBare {host : List Char} (h : IsBare host) (rest : List Char) :
    splitNetloc ('/' :: '/' :: (host ++ '/' :: rest)) = (host, '/' :: rest) := by
  have hhost : ∀ c ∈ host, decide (c ∉ ['/', '?', '#']) = true := by
    intro c hc
    have := (h c hc).2
    simp only [List.mem_cons, List.not_mem_nil, or_false, not_or] at this ⊢
    exact decide_eq_true ⟨this.1, this.2.1, this.2.2.1⟩
  rw [splitNetloc, List.takeWhile_append_of_pos hhost, List.dropWhile_append_of_pos hhost,
    List.takeWhile_cons_of_neg (by decide), List.dropWhile_cons_of_neg (by decide), List.append_nil]

/-- **Behind a plain authority the path is what it is given as**, up to a `#` or `?` and without
tabs and line breaks. -/
theorem split?_of_isBare {host : List Char} (h : IsBare host) (rest : List Char) :
    (split? ("http://".toList ++ (host ++ '/' :: rest))).map SplitResult.path
      = some (pathOf (('/' :: rest).filter fun c => c ∉ ['\t', '\r', '\n'])) := by
  have hclean : cleaned ("http://".toList ++ (host ++ '/' :: rest))
      = "http://".toList ++ ((host.filter fun c => c ∉ ['\t', '\r', '\n'])
        ++ '/' :: rest.filter fun c => c ∉ ['\t', '\r', '\n']) := by
    simp [cleaned]
  have hscheme : ∀ url : List Char, splitScheme ("http://".toList ++ url)
      = ("http".toList, '/' :: '/' :: url) := by
    intro url
    simp [splitScheme]
  -- the host may lose tabs and line breaks, and stays plain
  have hnetloc := isNetloc_of_isBare (h.filter fun c => c ∉ ['\t', '\r', '\n'])
  rw [split?, hclean, hscheme]
  dsimp only
  rw [splitNetloc_of_isBare (h.filter _)]
  dsimp only
  rw [if_pos hnetloc]
  rfl

end Urlsplit
