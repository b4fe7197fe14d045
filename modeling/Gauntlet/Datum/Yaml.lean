import Gauntlet.Datum
import Gauntlet.Yaml.Writing

/-! # Data as YAML

  Block style with four columns for each level; the items of a list are indented
  below its name, and what an item holds begins two columns after its dash.
-/

namespace Gauntlet.Yaml

/-- The next indentation: the first multiple of four that is greater. -/
def deeper (indent : Nat) : Nat := 4 * ((indent + 4) / 4)

/-- A scalar with the end of its line; a block may have ended its line already. -/
def withLineEnd (t : Text) : Text :=
  match (Text.glyphs t).getLast? with
  | some (.scalar c) => if breaksLine c then t else t ++ "\n"
  | _ => t ++ "\n"

mutual

/-- A datum after its name or dash: `indent` is the indentation of the collection that
    holds it. -/
def ofDatum (indent : Nat) : Datum → Text
  | .text t => withLineEnd (" " ++ ofText (deeper indent) t)
  | .number n => " " ++ Numeral.ofInt n ++ "\n"
  | .truth b => if b then " true\n" else " false\n"
  | .instant z => " " ++ z.text ++ "\n"
  | .list [] => " []\n"
  | .list ds => "\n" ++ ofItems (deeper indent) ds
  | .record [] => " \x7b\x7d\n"
  | .record fs => "\n" ++ ofFields (deeper indent) fs

def ofItems (indent : Nat) : List Datum → Text
  | [] => []
  | .record (f :: fs) :: ds =>
    Text.spaces indent ++ "- " ++ ofField (indent + 2) f ++ ofFields (indent + 2) fs ++
      ofItems indent ds
  | d :: ds => Text.spaces indent ++ "-" ++ ofDatum indent d ++ ofItems indent ds

def ofField (indent : Nat) : Text × Datum → Text
  | (name, d) => name ++ ":" ++ ofDatum indent d

/-- Fields on lines of their own. -/
def ofFields (indent : Nat) : List (Text × Datum) → Text
  | [] => []
  | f :: fs => Text.spaces indent ++ ofField indent f ++ ofFields indent fs

end

def document : Datum → Text
  | .record fs => ofFields 0 fs
  | d => ofDatum 0 d

end Gauntlet.Yaml
