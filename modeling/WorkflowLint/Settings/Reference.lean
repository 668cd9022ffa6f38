/-!
# References to the environment

A path may refer to environment variables as `${NAME}`. `expand` replaces the references in one
pass from left to right; what a variable holds is not looked at again.
-/

namespace WorkflowLint

/-- The environment: the value of each variable that is set to a text. -/
abbrev Environment := List (String × String)

namespace Environment

/-- The value of a variable, empty when it is not set or has no name. -/
def value (env : Environment) (name : String) : String :=
  if name = "" then "" else (env.lookup name).getD ""

end Environment

namespace Reference

/-- The text before the first closing brace and the text after it. -/
def splitBrace : List Char → Option (List Char × List Char)
  | [] => none
  | c :: rest =>
    if c = '\x7d' then some ([], rest)
    else (splitBrace rest).map fun (name, after) => (c :: name, after)

theorem length_of_splitBrace {s name after : List Char}
    (h : splitBrace s = some (name, after)) : after.length < s.length := by
  induction s generalizing name with
  | nil => simp [splitBrace] at h
  | cons c rest ih =>
    simp only [splitBrace] at h
    split at h
    · simp at h; simp [← h.2]
    · obtain ⟨⟨n, a⟩, hn, he⟩ := Option.map_eq_some_iff.1 h
      simp only [Prod.mk.injEq] at he
      have := ih (hn.trans (by rw [he.2]))
      simp only [List.length_cons]; omega

/-- The text with each reference replaced by the value of its variable. A reference without a
closing brace, and all after it, stays as it is. -/
def expand (env : Environment) (s : List Char) : List Char :=
  match s with
  | [] => []
  | '$' :: '\x7b' :: rest =>
    match h : splitBrace rest with
    | none => '$' :: '\x7b' :: rest
    | some (name, after) =>
      have := length_of_splitBrace h
      (env.value (String.ofList name)).toList ++ expand env after
  | c :: rest => c :: expand env rest
termination_by s.length
decreasing_by all_goals simp_wf; try omega

end Reference

def Environment.expand (env : Environment) (s : String) : String :=
  String.ofList (Reference.expand env s.toList)

end WorkflowLint
