import Waitress.Environment
import Waitress.Python.Text

/-!
# The prefix of the path

`slash_fixed_str` brings the configured prefix into the form that
`get_environment` relies on, unless it consists of slashes only.
-/

namespace Waitress

/-- Empty, or with exactly one slash in front and none at the end. -/
def Str.IsSlashFixed (urlPrefix : Str) : Prop :=
  urlPrefix = [] ∨
    urlPrefix.head? = some '/' ∧ urlPrefix.tail.head? ≠ some '/' ∧ urlPrefix.getLast? ≠ some '/'

/-- The two parts of a path under a prefix. -/
structure Recomposes (urlPrefix path scriptName info : Str) : Prop where
  script : scriptName = urlPrefix
  under : path = urlPrefix ∨ urlPrefix ++ ['/'] <+: path →
    scriptName ++ info = path ∧ (info = [] ∨ info.head? = some '/')
  outside : ¬(path = urlPrefix ∨ urlPrefix ++ ['/'] <+: path) → info = path

/-- The server with a prefix that was given to its adjustments. -/
def ServerContext.withUrlPrefix (server : ServerContext) (urlPrefix : Str) : ServerContext :=
  { server with adj := { server.adj with urlPrefix := slashFixedStr urlPrefix } }

/-! ### The configured prefix -/

theorem isSlashFixed_slashFixedStr (s : Str) :
    (slashFixedStr s).IsSlashFixed ↔ Str.strip s = [] ∨ ∃ c ∈ Str.strip s, c ≠ '/' := by
  rw [slashFixedStr]
  generalize Str.strip s = stripped
  by_cases empty : stripped = []
  · rw [if_pos empty]
    exact ⟨fun _ => .inl empty, fun _ => .inl empty⟩
  rw [if_neg empty]
  have onlySlashes : Str.rstripChars ['/'] (Str.lstripChars ['/'] stripped) = [] ↔
      ∀ c ∈ stripped, c = '/' := by
    simpa using Str.rstripChars_lstripChars_eq_nil_iff ['/'] stripped
  constructor
  · rintro (nothing | ⟨-, -, last⟩)
    · cases nothing
    · refine .inr ?_
      by_contra none
      have all : ∀ c ∈ stripped, c = '/' := by
        intro c mem
        by_contra other
        exact none ⟨c, mem, other⟩
      rw [onlySlashes.mpr all] at last
      exact last rfl
  · rintro (nothing | ⟨c, mem, other⟩)
    · exact absurd nothing empty
    · have nonempty : Str.rstripChars ['/'] (Str.lstripChars ['/'] stripped) ≠ [] :=
        fun none => other (onlySlashes.mp none c mem)
      refine .inr ⟨rfl, ?_, ?_⟩
      · intro first
        obtain ⟨rest, whole⟩ := Str.rstripChars_prefix ['/'] (Str.lstripChars ['/'] stripped)
        have head : (Str.lstripChars ['/'] stripped).head? = some '/' := by
          rw [← whole, List.head?_append, show (Str.rstripChars ['/']
            (Str.lstripChars ['/'] stripped)).head? = some '/' from first]
          rfl
        exact Str.head?_lstripChars ['/'] stripped head (by simp)
      · intro last
        rw [List.getLast?_cons, Option.some.injEq] at last
        cases ended : (Str.rstripChars ['/'] (Str.lstripChars ['/'] stripped)).getLast? with
        | none => exact nonempty (List.getLast?_eq_none_iff.mp ended)
        | some c =>
            rw [ended, Option.getD_some] at last
            subst last
            exact Str.getLast?_rstripChars ['/'] (Str.lstripChars ['/'] stripped) ended (by simp)

/-! ### The two parts of the path -/

theorem recomposes_pathInfo (urlPrefix path : Str) :
    Recomposes urlPrefix path urlPrefix (pathInfo urlPrefix path) := by
  refine ⟨rfl, fun isUnder => ?_, fun isOutside => ?_⟩
  · by_cases empty : urlPrefix = []
    · subst empty
      refine ⟨rfl, ?_⟩
      rcases isUnder with whole | ⟨rest, whole⟩
      · exact .inl whole
      · exact .inr (by rw [← whole]; rfl)
    · by_cases same : path = urlPrefix
      · rw [pathInfo, if_neg empty, if_pos same, same, List.append_nil]
        exact ⟨rfl, .inl rfl⟩
      · obtain ⟨rest, rfl⟩ := isUnder.resolve_left same
        have found : (urlPrefix ++ ['/']).isPrefixOf (urlPrefix ++ ['/'] ++ rest) = true := by
          rw [List.isPrefixOf_iff_prefix]
          exact List.prefix_append _ rest
        have behind : (urlPrefix ++ ['/'] ++ rest).drop urlPrefix.length = '/' :: rest := by
          rw [List.append_assoc, List.drop_left]
          rfl
        rw [pathInfo, if_neg empty, if_neg same, if_pos found, behind]
        exact ⟨by simp, .inr rfl⟩
  · by_cases empty : urlPrefix = []
    · rw [pathInfo, if_pos empty]
    · have absent : ¬(urlPrefix ++ ['/']).isPrefixOf path = true := by
        rw [List.isPrefixOf_iff_prefix]
        exact fun isUnder => isOutside (.inr isUnder)
      rw [pathInfo, if_neg empty, if_neg fun same => isOutside (.inl same), if_neg absent]

section Environment

variable (server : ServerContext) (version : Str) (request : HTTPRequestParser)

theorem get?_scriptName :
    (getEnvironment server version request).get? "SCRIPT_NAME".toList =
      some server.adj.urlPrefix := by
  refine get?_getEnvironment ?_
  rw [requestEntries]
  cases server.adj.ident <;> rfl

theorem get?_pathInfo :
    (getEnvironment server version request).get? "PATH_INFO".toList =
      some (pathInfo server.adj.urlPrefix (collapseSlashes (request.path.getD []))) := by
  refine get?_getEnvironment ?_
  rw [requestEntries]
  cases server.adj.ident <;> rfl

/-- The two parts recompose the path, whatever the prefix is.  The prefix has the promised form
exactly if it is not made of slashes only. -/
theorem scriptName_pathInfo_iff (urlPrefix : Str) :
    ((slashFixedStr urlPrefix).IsSlashFixed ∧ ∃ scriptName info,
      (getEnvironment (server.withUrlPrefix urlPrefix) version request).get?
        "SCRIPT_NAME".toList = some scriptName ∧
      (getEnvironment (server.withUrlPrefix urlPrefix) version request).get?
        "PATH_INFO".toList = some info ∧
      Recomposes (slashFixedStr urlPrefix) (collapseSlashes (request.path.getD []))
        scriptName info) ↔
    ¬(Str.strip urlPrefix ≠ [] ∧ ∀ c ∈ Str.strip urlPrefix, c = '/') := by
  have parts := recomposes_pathInfo (slashFixedStr urlPrefix)
    (collapseSlashes (request.path.getD []))
  rw [isSlashFixed_slashFixedStr]
  constructor
  · rintro ⟨empty | ⟨c, mem, other⟩, -⟩ ⟨nonempty, all⟩
    · exact nonempty empty
    · exact other (all c mem)
  · intro notSlashes
    refine ⟨?_, _, _, get?_scriptName _ version request, get?_pathInfo _ version request, parts⟩
    by_contra neither
    refine notSlashes ⟨fun empty => neither (.inl empty), fun c mem => ?_⟩
    by_contra other
    exact neither (.inr ⟨c, mem, other⟩)

/-- A prefix of one slash stays as it is, so that it ends with a slash. -/
theorem slash_not_slashFixed :
    ¬∀ (urlPrefix : Str) (server : ServerContext) (version : Str) (request : HTTPRequestParser),
      (slashFixedStr urlPrefix).IsSlashFixed ∧ ∃ scriptName info,
        (getEnvironment (server.withUrlPrefix urlPrefix) version request).get?
          "SCRIPT_NAME".toList = some scriptName ∧
        (getEnvironment (server.withUrlPrefix urlPrefix) version request).get?
          "PATH_INFO".toList = some info ∧
        Recomposes (slashFixedStr urlPrefix) (collapseSlashes (request.path.getD []))
          scriptName info := by
  intro always
  have server : ServerContext := { addr := [], port := [], effectivePort := [], serverName := [] }
  have promised := (always "/".toList server "1.1".toList {}).1
  rcases promised with empty | ⟨-, -, last⟩
  · cases empty
  · exact last rfl

end Environment

end Waitress
