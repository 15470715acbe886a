import SingBoxMini.Support.UrlPath

/-!
# Masquerade — Proxy

The URL `proxy_response` (`masquerade.rs`) forwards a request to: the path of the request behind the
path of the configured URL.

Paths are read as the URL standard prescribes for `http` and `https`, the only schemes the
configuration accepts, both when the configured URL is parsed and by `set_path`.

* `proxyPath_eq`: the path that is forwarded to is the request's path resolved against the base.
* `proxy_stays_inside_iff`: it begins with the segments of the base exactly if the request puts back
  those that its dots have taken away.
* `dots_leave_base`: a request can leave the base.
-/

namespace SingBoxMini.Masquerade
open Text UrlPath

/-- The path of the URL `proxy_response` forwards to, from the texts of the paths of the configured
URL and of the request. -/
def proxyPath (targetPath requestPath : List Char) : List (List Char) :=
  let basePath := trimEndMatches '/' (serialize (parsePath targetPath))
  let requestPath := trimStartMatches '/' requestPath
  parsePath (basePath ++ '/' :: requestPath)

/-- The segments of the configured URL's path; slashes at its end are no segments. -/
def baseSegments (targetPath : List Char) : List (List Char) :=
  (parsePath targetPath).rdropWhile (· = [])

/-- What the path of a request does to the base. -/
def requestClimb (requestPath : List Char) : Climb :=
  Climb.of (pieces (clean (trimStartMatches '/' requestPath)))

/-- **The path that is forwarded to** is the base, without the segments the request takes away, and
what it puts there. -/
theorem proxyPath_eq (targetPath requestPath : List Char) :
    proxyPath targetPath requestPath =
      (requestClimb requestPath).apply (baseSegments targetPath) := by
  have hnormal : ∀ segment ∈ baseSegments targetPath, IsNormal segment := by
    intro segment hmem
    have hstart := List.rdropWhile_prefix (· = []) (parsePath targetPath)
    exact normal_parsePath targetPath segment (hstart.subset hmem)
  rw [proxyPath, trimEndMatches_serialize (normal_parsePath targetPath)]
  exact (parsePath_append hnormal _).trans (Climb.resolve_eq _ _)

/-- **The base is left exactly by dots.**  The path that is forwarded to begins with the segments of
the configured URL's path exactly if the segments that the request takes away of them are those that
it then puts there again. -/
theorem proxy_stays_inside_iff (targetPath requestPath : List Char) :
    baseSegments targetPath <+: proxyPath targetPath requestPath ↔
      (baseSegments targetPath).drop
          ((baseSegments targetPath).length - (requestClimb requestPath).up) <+:
        (requestClimb requestPath).tail := by
  rw [proxyPath_eq]
  exact Climb.start_apply_iff _ _

/-- Behind `/app`, the requests `/../admin` and `/%2E./admin` are forwarded to `/admin`. -/
theorem dots_leave_base :
    baseSegments "/app".toList = ["app".toList] ∧
      proxyPath "/app".toList "/../admin".toList = ["admin".toList] ∧
      proxyPath "/app".toList "/%2E./admin".toList = ["admin".toList] ∧
      ¬baseSegments "/app".toList <+: proxyPath "/app".toList "/../admin".toList := by
  decide

end SingBoxMini.Masquerade
