import AmneziaVpn.WireguardTexts

/-!
# The variables of a script

`replaceVars` replaces one variable after the other, also where it has inserted a value before.
-/

namespace AmneziaVpn.ServerController

open List WireguardConfigurator

def scriptNames : List String := otherNames ++ ownNames

/-- A template is cut into variables, text without a dollar, and words that start with one and
are told apart from every variable. -/
def IsPiece (piece : String) : Prop :=
  piece ∈ scriptNames ∨ '$' ∉ piece.toList ∨
    isVariable piece = true ∧ ∀ name ∈ scriptNames, apart name piece = true

def noOthers : OtherVars := plainScripts.others

end AmneziaVpn.ServerController
