import Microservices.Http
import Microservices.Lib.Latin1
import Microservices.Lib.Urlsplit

/-!
# The URL of a request

`request.url` is put together by the framework from what the server hands over: the
scheme, the `Host` header or else the server's own address, the path decoded once and
the query. `request.url.path` is the path `urlsplit` finds in that text, which is the
path of the request line only if the header is a plain authority. The header is the
client's, and it may also make `urlsplit` raise.
-/

namespace Microservices

/-- What `request.url` is made from. -/
structure UrlScope where
  scheme : String := "http"
  /-- The address the server listens on. -/
  server : Option (String × Nat) := none
  /-- The first `Host` header. -/
  host : Option String
  /-- The path the request is routed by. -/
  path : String
  queryString : Bytes := []
  deriving Repr

/-- The port a scheme implies; `none` is `KeyError`. -/
def defaultPort? (scheme : String) : Option Nat :=
  [("http", 80), ("https", 443), ("ws", 80), ("wss", 443)].lookup scheme

namespace UrlScope

/-- The URL without the query. -/
def base? (s : UrlScope) : Option String :=
  match s.host, s.server with
  | some host, _ => some (s.scheme ++ "://" ++ host ++ s.path)
  | none, none => some s.path
  | none, some (host, port) =>
      (defaultPort? s.scheme).map fun defaultPort =>
        if port = defaultPort then s.scheme ++ "://" ++ host ++ s.path
        else s.scheme ++ "://" ++ host ++ ":" ++ toString port ++ s.path

/-- `URL(scope=scope)`; the query has to be UTF-8. -/
def url? (s : UrlScope) : Option (List Char) :=
  s.base?.bind fun base =>
    if s.queryString = [] then some base.toList
    else (Unicode.strictUtf8? s.queryString).map fun query => base.toList ++ '?' :: query

/-- `request.url.path`; `none` where reading it raises. -/
def path? (s : UrlScope) : Option String :=
  (s.url?.bind Urlsplit.split?).map fun parts => String.ofList parts.path

/-- The text of a path as `urlsplit` leaves it: no tabs and line breaks, and nothing from a `#` or
`?` on. -/
def readBack (path : String) : String :=
  String.ofList (Urlsplit.pathOf (path.toList.filter fun c => c ∉ ['\t', '\r', '\n']))

/-- **With a plain `Host` the path that is read is the one the request is routed by**, as
`urlsplit` leaves it. -/
theorem path?_of_isBare {s : UrlScope} {host : String} (hscheme : s.scheme = "http")
    (hhost : s.host = some host) (hbare : Urlsplit.IsBare host.toList)
    (hrooted : s.path.toList.head? = some '/')
    (hquery : (Unicode.strictUtf8? s.queryString).isSome) : s.path? = some (readBack s.path) := by
  obtain ⟨rest, hrest⟩ : ∃ rest, s.path.toList = '/' :: rest := by
    cases hp : s.path.toList with
    | nil => rw [hp] at hrooted; cases hrooted
    | cons c rest =>
        rw [hp] at hrooted
        cases hrooted
        exact ⟨rest, rfl⟩
  have hbase : s.base? = some (s.scheme ++ "://" ++ host ++ s.path) := by
    unfold base?
    rw [hhost]
  have htext : (s.scheme ++ "://" ++ host ++ s.path).toList
      = "http://".toList ++ (host.toList ++ '/' :: rest) := by
    rw [hscheme, String.toList_append, String.toList_append, hrest, List.append_assoc]
    rfl
  -- a query is cut off again
  have hread : ∀ query : List Char, query = [] ∨ query.head? = some '?' →
      (Urlsplit.split? ("http://".toList ++ (host.toList ++ '/' :: (rest ++ query)))).map
        (fun parts => String.ofList parts.path) = some (readBack s.path) := by
    intro query hq
    have hsplit := congrArg (Option.map String.ofList) (Urlsplit.split?_of_isBare hbare (rest ++ query))
    rw [Option.map_map] at hsplit
    refine hsplit.trans ?_
    rw [Option.map_some, readBack, hrest, ← List.cons_append, List.filter_append]
    rcases hq with rfl | hq
    · rw [List.filter_nil, List.append_nil]
    · obtain ⟨query', rfl⟩ : ∃ query', query = '?' :: query' := List.head?_eq_some_iff.mp hq
      rw [List.filter_cons_of_pos (a := '?') (by decide), Urlsplit.pathOf_append_query]
  unfold path? url?
  rw [hbase, Option.bind_some, htext]
  by_cases hq : s.queryString = []
  · rw [if_pos hq, Option.bind_some]
    have := hread [] (Or.inl rfl)
    rwa [List.append_nil] at this
  · obtain ⟨query, hquery⟩ := Option.isSome_iff_exists.mp hquery
    rw [if_neg hq, hquery, Option.map_some, Option.bind_some]
    have := hread ('?' :: query) (Or.inr rfl)
    simpa using this

end UrlScope

end Microservices
