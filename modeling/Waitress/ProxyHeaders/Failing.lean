import Waitress.ProxyHeaders.Rewriting

/-!
# Bad proxy headers

Every malformed header is answered with 400.  A client without an address is
not: `strip_brackets` looks at the first character of an empty text.
-/

namespace Waitress.ProxyHeaders

open Raising

section Failing

variable (server : ServerContext) (version : Str) (request : HTTPRequestParser)

theorem get?_urlScheme :
    (getEnvironment server version request).get? "wsgi.url_scheme".toList =
      some (request.urlScheme.getD []) := by
  refine get?_getEnvironment ?_
  rw [requestEntries]
  cases server.adj.ident with
  | none => rfl
  | some ident => rfl

/-- Nothing but malformed headers is reported, unless the trusted headers are well formed and
name a client that has no address. -/
theorem parseProxyHeaders_raisesOnly_iff (trusted : List Str) (count : Int)
    (positive : 1 ≤ count) :
    (∀ exc after, exec (parseProxyHeaders trusted count) (getEnvironment server version request) =
      (.error exc, after) → IsMalformed exc) ↔
    ¬(Readable trusted count (getEnvironment server version request) ∧
      NoAddress ((clientText trusted count (getEnvironment server version request)).getD [])) := by
  have given := get?_urlScheme server version request
  constructor
  · rintro only ⟨readable, noAddress⟩
    have raised : exec (parseProxyHeaders trusted count) (getEnvironment server version request) =
        (.error (.indexError "string index out of range".toList),
          numbered trusted count (getEnvironment server version request)) := by
      rw [exec_parseProxyHeaders positive readable fun _ => get?_kept_scheme given,
        exec_applyClient_noAddress noAddress]
    obtain ⟨header, reason, value, same⟩ := only _ _ raised
    cases same
  · intro fine exc after raised
    rcases exec_parseProxyHeaders_error positive given raised with malformed | bad
    · exact malformed
    · exact absurd bad fine

end Failing

/-- An accepted request, with what stands in its `X-Forwarded-For` field. -/
def forwardedRequest [CPython] (hop : String) : HTTPRequestParser :=
  (({} : HTTPRequestParser).received {}
    (ascii "GET / HTTP/1.1\r\nX-Forwarded-For: " ++ ascii hop ++ doubleNewline)).1

def forwardedEnviron (hop : String) : Environ :=
  getEnvironment { addr := [], port := [], effectivePort := [], serverName := [] } "1.1".toList
    (@forwardedRequest CPython.unchecked hop)

theorem parseProxyHeaders_raisesOnly_address :
    (1 : Int) ≤ 1 ∧
    ∀ exc after, exec (parseProxyHeaders ["x-forwarded-for".toList] 1)
      (forwardedEnviron "192.0.2.1:80") = (.error exc, after) → IsMalformed exc := by
  refine ⟨by decide, (parseProxyHeaders_raisesOnly_iff _ _ _ _ _ (by decide)).mpr ?_⟩
  rintro ⟨-, noAddress⟩
  have none := (splitClient_eq_nil_iff noAddress.1).mpr noAddress
  have some : (splitClient ((clientText ["x-forwarded-for".toList] 1
      (forwardedEnviron "192.0.2.1:80")).getD [])).1 = "192.0.2.1".toList := by decide +kernel
  exact absurd (none.symm.trans some) (by decide)

/-- A proxy that forwards an empty address before a port makes the call fail. -/
theorem parseProxyHeaders_blankHop :
    (@forwardedRequest CPython.unchecked ":8.0").completed = true ∧
    (@forwardedRequest CPython.unchecked ":8.0").error = none ∧
    ¬∀ exc after, exec (parseProxyHeaders ["x-forwarded-for".toList] 1)
      (forwardedEnviron ":8.0") = (.error exc, after) → IsMalformed exc := by
  refine ⟨by decide +kernel, by decide +kernel, fun only => ?_⟩
  have raised : (exec (parseProxyHeaders ["x-forwarded-for".toList] 1)
      (forwardedEnviron ":8.0")).1 =
      .error (.indexError "string index out of range".toList) := by decide +kernel
  rcases run : exec (parseProxyHeaders ["x-forwarded-for".toList] 1) (forwardedEnviron ":8.0") with
    ⟨result, after⟩
  rw [run] at raised
  obtain rfl := raised
  obtain ⟨header, reason, value, same⟩ := only _ after run
  cases same

end Waitress.ProxyHeaders
