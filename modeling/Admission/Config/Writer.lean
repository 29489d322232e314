import Admission.Config.Reader
import Admission.Toml.Writer

/-!
# Configurations as text

The settings of the node come first, then a table for each client, then the functions of the
contract. Everything is written, also where it is standard.
-/

namespace Admission.Config

open Admission.Toml

/-- The entries about the node. -/
def nodeEntries (s : NodeSettings) : List (String × Scalar) :=
  [("id", .number s.id), ("log_level", .text s.logLevel), ("signing_scheme", .text s.scheme.name)]

/-- The entries about a client. -/
def clientEntries (c : ClientEntry) : List (String × Scalar) :=
  [("id", .number c.id), ("address", .text c.address), ("public_key", .text c.publicKey)]

/-- The entries about functions. -/
def functionEntries (f : FunctionNames) : List (String × Scalar) :=
  f.entries.map fun (signature, name) => (signature, .text name)

/-- The lines about the node. -/
def nodeLines (s : NodeSettings) : List Line :=
  .table ⟨[], "node"⟩ :: (nodeEntries s).map .plain

/-- The lines about a client. -/
def clientLines (c : ClientEntry) : List Line :=
  .blank :: .item ⟨[], "clients"⟩ :: (clientEntries c).map .plain

/-- The lines about functions. -/
def functionLines (f : FunctionNames) : List Line :=
  .blank :: .table ⟨["contract"], "functions"⟩ :: (functionEntries f).map .plain

/-- The lines of a configuration. -/
def toLines (c : Config) : List Line :=
  nodeLines c.node ++ c.clients.flatMap clientLines ++ functionLines c.functions

/-- The text of a configuration. -/
def toText (c : Config) : String :=
  String.ofList (linesText c.toLines)

end Admission.Config
