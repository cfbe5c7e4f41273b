import Synopsis.Pattern.Basic

/-!
# The options shortcut

The word `options` in a usage line stands for all documented options that the
usage lines do not name themselves. It becomes an optional group of these, in the
order of their descriptions and each identity once.
-/

namespace Synopsis.Pattern

mutual

def hasShortcut : Pattern → Bool
  | leaf _ => false
  | required ps => hasShortcutAny ps
  | optional ps => hasShortcutAny ps
  | either ps => hasShortcutAny ps
  | oneOrMore p => hasShortcut p
  | shortcut => true

def hasShortcutAny : List Pattern → Bool
  | [] => false
  | p :: ps => hasShortcut p || hasShortcutAny ps

end

mutual

def replaceShortcut (group : Pattern) : Pattern → Pattern
  | leaf slot => leaf slot
  | required ps => required (replaceShortcutAll group ps)
  | optional ps => optional (replaceShortcutAll group ps)
  | either ps => either (replaceShortcutAll group ps)
  | oneOrMore p => oneOrMore (replaceShortcut group p)
  | shortcut => group

def replaceShortcutAll (group : Pattern) : List Pattern → List Pattern
  | [] => []
  | p :: ps => replaceShortcut group p :: replaceShortcutAll group ps

end

@[simp]
theorem hasShortcutAny_eq_any (ps : List Pattern) : hasShortcutAny ps = ps.any hasShortcut := by
  induction ps with
  | nil => rfl
  | cons p ps ih => simp [hasShortcutAny, ih]

@[simp]
theorem replaceShortcutAll_eq_map (group : Pattern) (ps : List Pattern) :
    replaceShortcutAll group ps = ps.map (replaceShortcut group) := by
  induction ps with
  | nil => rfl
  | cons p ps ih => simp [replaceShortcutAll, ih]

/-- The documented options that share no identity with a named one, nor with one
another. -/
def unnamed (options : Registry) (named : List OptionId) : List OptionId :=
  options.documentedIds.foldl
    (fun found id =>
      let id := options.canonical id
      if (named ++ found).any (options.sameIdentity · id) then found else found ++ [id])
    []

def expandShortcut (options : Registry) (p : Pattern) : Pattern :=
  if p.hasShortcut then
    replaceShortcut (optional ((unnamed options p.optionIds).map option)) p
  else p

end Synopsis.Pattern
