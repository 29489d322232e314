import Admission.Config.Writer
import Admission.Proofs.Text.Utf8
import Admission.Proofs.Toml.Lines

/-!
# Configurations are read back

The lines of a configuration build its table (`foldlM_toLines`): the settings of the node, a table
for each client behind those before it, and the functions in the table of the contract. From the
table the values are taken as they were (`ofTable_toTable`). So the text of a configuration is read
as the configuration (`ofText_toText`), and a file that holds the text gives the configuration if it
is valid, and otherwise what is wrong with it (`load_toText`).
-/

namespace Admission.Config

open Admission.Toml

variable (s : NodeSettings) (c : Config)

/-! ## The table of a configuration -/

/-- The table of a client. -/
def clientTable (client : ClientEntry) : Table :=
  tableOf (clientEntries client)

/-- The settings of the node, under their name. -/
def nodePart (s : NodeSettings) : Table :=
  [("node", .table .header (tableOf (nodeEntries s)))]

/-- The tables of clients, under their name if there are any. -/
def clientsPart (clients : List ClientEntry) : Table :=
  match clients.getLast? with
  | none => []
  | some last => [("clients", .tables (clients.dropLast.map clientTable) (clientTable last))]

/-- The functions, under their name in the contract. -/
def contractPart (f : FunctionNames) : Table :=
  [("contract", .table .passed [("functions", .table .header (tableOf (functionEntries f)))])]

/-- The table of a configuration. -/
def toTable (c : Config) : Table :=
  nodePart c.node ++ clientsPart c.clients ++ contractPart c.functions

lemma clientsPart_concat (clients : List ClientEntry) (last : ClientEntry) :
    clientsPart (clients ++ [last])
      = [("clients", .tables (clients.map clientTable) (clientTable last))] := by
  simp [clientsPart]

/-! ## From lines to the table -/

lemma foldlM_nodeLines :
    (nodeLines s).foldlM Draft.take ⟨[], []⟩ = some ⟨["node"], nodePart s⟩ := by
  have hleads : LeadsTo ["node"] fun t => [] ++ [("node", .table .header t)] :=
    leadsTo_nil.through List.not_mem_nil fun _ _ => rfl
  have hentries := hleads.foldlM_plain (t := []) (nodeEntries s) (by simp [nodeEntries])
  exact hentries

section Parts

variable {front : Table} (header : List String)

/-- A client goes behind those before it. -/
lemma foldlM_clientLines (hfront : "clients" ∉ front.map Prod.fst) (clients : List ClientEntry)
    (client : ClientEntry) :
    (clientLines client).foldlM Draft.take ⟨header, front ++ clientsPart clients⟩
      = some ⟨["clients"], front ++ clientsPart (clients ++ [client])⟩ := by
  have hbegin : (front ++ clientsPart clients).beginItem ⟨[], "clients"⟩
      = some (front ++ [("clients", .tables (clients.map clientTable) [])]) := by
    show Table.alter "clients" Table.extended (front ++ clientsPart clients) = _
    rw [Table.alter_append hfront]
    rcases List.eq_nil_or_concat clients with rfl | ⟨earlier, last, rfl⟩
    · rfl
    · rw [List.concat_eq_append, clientsPart_concat, Table.alter, if_pos rfl, List.map_append]
      rfl
  have hitem : Draft.take ⟨header, front ++ clientsPart clients⟩ (.item ⟨[], "clients"⟩)
      = some ⟨["clients"], front ++ [("clients", .tables (clients.map clientTable) [])]⟩ := by
    rw [Draft.take, hbegin]
    rfl
  have hleads : LeadsTo ["clients"] fun t =>
      front ++ [("clients", .tables (clients.map clientTable) t)] :=
    leadsTo_nil.through hfront fun _ _ => rfl
  have hentries := hleads.foldlM_plain (t := []) (clientEntries client) (by simp [clientEntries])
  rw [clientLines, foldlM_cons_of_take rfl, foldlM_cons_of_take hitem, clientsPart_concat]
  exact hentries

/-- Clients go one behind the other; the last header is that of a client if there is one. -/
lemma exists_foldlM_clients (hfront : "clients" ∉ front.map Prod.fst)
    (clients : List ClientEntry) :
    ∃ last, (clients.flatMap clientLines).foldlM Draft.take ⟨header, front⟩
      = some ⟨last, front ++ clientsPart clients⟩ := by
  induction clients using List.reverseRecOn with
  | nil => exact ⟨header, by simp [clientsPart]⟩
  | append_singleton clients client ih =>
    obtain ⟨last, hlast⟩ := ih
    refine ⟨["clients"], ?_⟩
    rw [List.flatMap_append, List.foldlM_append, hlast, List.flatMap_singleton]
    exact foldlM_clientLines last hfront clients client

/-- The names of functions are in order, so none comes twice. -/
lemma nodup_functionEntries (f : FunctionNames) : ((functionEntries f).map Prod.fst).Nodup := by
  have hnames : (functionEntries f).map Prod.fst = f.entries.map Prod.fst := by
    rw [functionEntries, List.map_map]
    rfl
  rw [hnames]
  exact f.sorted.imp String.ne_of_lt

lemma foldlM_functionLines (hfront : "contract" ∉ front.map Prod.fst) (f : FunctionNames) :
    (functionLines f).foldlM Draft.take ⟨header, front⟩
      = some ⟨["contract", "functions"], front ++ contractPart f⟩ := by
  have hbegin : front.beginTable ⟨["contract"], "functions"⟩
      = some (front ++ contractPart .empty) := Table.alter_of_notMem hfront
  have htable : Draft.take ⟨header, front⟩ (.table ⟨["contract"], "functions"⟩)
      = some ⟨["contract", "functions"], front ++ contractPart .empty⟩ := by
    rw [Draft.take, hbegin]
    rfl
  have hinner : LeadsTo ["functions"] fun t => [] ++ [("functions", .table .header t)] :=
    leadsTo_nil.through List.not_mem_nil fun _ _ => rfl
  have hleads : LeadsTo ["contract", "functions"] fun t =>
      front ++ [("contract", .table .passed [("functions", .table .header t)])] :=
    hinner.through hfront fun _ _ => rfl
  have hentries := hleads.foldlM_plain (t := []) (functionEntries f) (nodup_functionEntries f)
  rw [functionLines, foldlM_cons_of_take rfl, foldlM_cons_of_take htable]
  exact hentries

end Parts

/-- The lines of a configuration build its table. -/
theorem foldlM_toLines :
    (c.toLines.foldlM Draft.take ⟨[], []⟩).map Draft.root = some c.toTable := by
  have hclients : "clients" ∉ (nodePart c.node).map Prod.fst := by simp [nodePart]
  have hcontract : "contract" ∉ (nodePart c.node ++ clientsPart c.clients).map Prod.fst := by
    rcases List.eq_nil_or_concat c.clients with hnil | ⟨earlier, last, hconcat⟩
    · simp [nodePart, clientsPart, hnil]
    · simp [nodePart, clientsPart, hconcat]
  obtain ⟨header, hheader⟩ := exists_foldlM_clients ["node"] hclients c.clients
  have hfront : (nodeLines c.node ++ c.clients.flatMap clientLines).foldlM Draft.take ⟨[], []⟩
      = some ⟨header, nodePart c.node ++ clientsPart c.clients⟩ := by
    rw [List.foldlM_append, foldlM_nodeLines]
    exact hheader
  rw [toLines, List.foldlM_append, hfront, Option.bind_eq_bind, Option.bind_some,
    foldlM_functionLines header hcontract c.functions]
  rfl

/-! ## From the table to the configuration -/

lemma wordOf_number (n : UInt32) : wordOf (Scalar.number n).toNode = some n := by
  have hn := n.toNat_lt
  rw [Scalar.toNode, wordOf, if_pos ⟨by omega, by omega⟩, Int.toNat_natCast, UInt32.ofNat_toNat]

lemma takeOr_nodePart :
    takeOr .standard nodeSettingsOf ((nodePart s).get? "node") = some s := by
  have hget : (nodePart s).get? "node" = some (.table .header (tableOf (nodeEntries s))) := rfl
  have hfind : lookupOf (.table .header (tableOf (nodeEntries s)))
      = some fun _ name => (tableOf (nodeEntries s)).get? name := rfl
  have hid : (tableOf (nodeEntries s)).get? "id" = some (Scalar.number s.id).toNode := rfl
  have hlevel : (tableOf (nodeEntries s)).get? "log_level" = some (.text s.logLevel) := rfl
  have hscheme : (tableOf (nodeEntries s)).get? "signing_scheme" = some (.text s.scheme.name) := rfl
  rw [hget, takeOr, nodeSettingsOf, hfind]
  refine Option.bind_eq_some_iff.mpr ⟨_, rfl, ?_⟩
  refine Option.bind_eq_some_iff.mpr ⟨s.id, ?_, ?_⟩
  · rw [hid, takeOr, wordOf_number]
  · rw [hlevel, hscheme]
    refine Option.bind_eq_some_iff.mpr ⟨s.logLevel, rfl, ?_⟩
    exact Option.bind_eq_some_iff.mpr ⟨s.scheme, SigningScheme.ofName?_name s.scheme, rfl⟩

lemma clientEntryOf_clientTable (client : ClientEntry) :
    clientEntryOf (.table .header (clientTable client)) = some client := by
  have hfind : lookupOf (.table .header (clientTable client))
      = some fun _ name => (clientTable client).get? name := rfl
  have hid : (clientTable client).get? "id" = some (Scalar.number client.id).toNode := rfl
  have haddress : (clientTable client).get? "address" = some (.text client.address) := rfl
  have hkey : (clientTable client).get? "public_key" = some (.text client.publicKey) := rfl
  rw [clientEntryOf, hfind]
  refine Option.bind_eq_some_iff.mpr ⟨_, rfl, ?_⟩
  refine Option.bind_eq_some_iff.mpr ⟨client.id, ?_, ?_⟩
  · rw [hid, Option.bind_some, wordOf_number]
  · rw [haddress, hkey]
    refine Option.bind_eq_some_iff.mpr ⟨client.address, rfl, ?_⟩
    exact Option.bind_eq_some_iff.mpr ⟨client.publicKey, rfl, rfl⟩

lemma takeOr_clientsPart (clients : List ClientEntry) :
    takeOr [] clientEntriesOf ((clientsPart clients).get? "clients") = some clients := by
  have hall : ∀ clients : List ClientEntry,
      (clients.map fun client => Node.table .header (clientTable client)).mapM clientEntryOf
        = some clients := by
    intro clients
    induction clients with
    | nil => rfl
    | cons client clients ih =>
      rw [List.map_cons, List.mapM_cons, clientEntryOf_clientTable, ih]
      rfl
  rcases List.eq_nil_or_concat clients with rfl | ⟨earlier, last, rfl⟩
  · rfl
  · have hitems : itemsOf (.tables (earlier.map clientTable) (clientTable last))
        = some ((earlier ++ [last]).map fun client => Node.table .header (clientTable client)) := by
      simp [itemsOf]
    rw [List.concat_eq_append, clientsPart_concat]
    show clientEntriesOf _ = _
    rw [clientEntriesOf, hitems]
    exact hall (earlier ++ [last])

/-- An entry whose name comes after all others is inserted at the end. -/
lemma insertEntry_of_lt {entry : String × String} {entries : List (String × String)}
    (h : ∀ key ∈ entries.map Prod.fst, key < entry.1) :
    FunctionNames.insertEntry entry entries = entries ++ [entry] := by
  induction entries with
  | nil => rfl
  | cons first rest ih =>
    obtain ⟨hfirst, hrest⟩ := List.forall_mem_cons.mp h
    rw [FunctionNames.insertEntry, if_neg (String.lt_asymm hfirst),
      if_neg (String.ne_of_lt hfirst).symm, ih hrest, List.cons_append]

/-- Functions that are added in their order stand behind those that are there. -/
lemma addFunctions_of_sorted {f g : FunctionNames} {entries : List (String × String)}
    (h : g.entries = f.entries ++ entries) :
    addFunctions f (entries.map fun (signature, name) => (signature, .text name)) = some g := by
  induction entries generalizing f with
  | nil =>
    obtain ⟨entries, hsorted⟩ := g
    obtain rfl : entries = f.entries := h.trans (List.append_nil _)
    rfl
  | cons entry entries ih =>
    have hsorted := g.sorted
    rw [h, List.map_append, List.pairwise_append] at hsorted
    have hbefore : ∀ key ∈ f.entries.map Prod.fst, key < entry.1 :=
      fun key hkey => hsorted.2.2 key hkey entry.1 List.mem_cons_self
    have hinsert : (f.insert entry.1 entry.2).entries = f.entries ++ [entry] :=
      insertEntry_of_lt hbefore
    show addFunctions (f.insert entry.1 entry.2) _ = _
    apply ih
    rw [hinsert, h, List.append_assoc]
    rfl

lemma takeOr_contractPart (f : FunctionNames) :
    takeOr .empty contractOf ((contractPart f).get? "contract") = some f := by
  have htable : tableOf (functionEntries f)
      = f.entries.map fun (signature, name) => (signature, .text name) := by
    rw [tableOf, functionEntries, List.map_map]
    rfl
  show addFunctions .empty (tableOf (functionEntries f)) = some f
  rw [htable]
  exact addFunctions_of_sorted (List.nil_append f.entries).symm

/-- Values are taken from the table of a configuration as they were. -/
theorem ofTable_toTable : ofTable c.toTable = some c := by
  have hget : ∀ name, c.toTable.get? name = (((nodePart c.node).get? name).or
      ((clientsPart c.clients).get? name)).or ((contractPart c.functions).get? name) := by
    intro name
    simp only [toTable, Table.get?, List.lookup_append]
  have hnode : c.toTable.get? "node" = (nodePart c.node).get? "node" := by
    rw [hget]
    rfl
  have hclients : c.toTable.get? "clients" = (clientsPart c.clients).get? "clients" := by
    have hbefore : (nodePart c.node).get? "clients" = none := rfl
    have hbehind : (contractPart c.functions).get? "clients" = none := rfl
    rw [hget, hbefore, hbehind, Option.none_or, Option.or_none]
  have hcontract : c.toTable.get? "contract" = (contractPart c.functions).get? "contract" := by
    have hbefore : (nodePart c.node).get? "contract" = none := rfl
    have hclients : (clientsPart c.clients).get? "contract" = none := by
      unfold clientsPart
      split <;> rfl
    rw [hget, hbefore, hclients, Option.none_or, Option.none_or]
  rw [ofTable, hnode, hclients, hcontract]
  refine Option.bind_eq_some_iff.mpr ⟨c.node, takeOr_nodePart c.node, ?_⟩
  refine Option.bind_eq_some_iff.mpr ⟨c.clients, takeOr_clientsPart c.clients, ?_⟩
  exact Option.bind_eq_some_iff.mpr ⟨c.functions, takeOr_contractPart c.functions, rfl⟩

/-! ## Texts and files -/

/-- No key of a configuration has more than two parts. -/
lemma fits_toLines : ∀ line ∈ c.toLines, line.Fits := by
  have hplain : ∀ (entries : List (String × Scalar)) (line : Line),
      line ∈ entries.map Line.plain → line.Fits := by
    intro entries line hline
    obtain ⟨entry, -, rfl⟩ := List.mem_map.mp hline
    show 0 + 1 < depthLimit
    decide
  intro line hline
  simp only [toLines, nodeLines, clientLines, functionLines, List.mem_append, List.mem_flatMap,
    List.mem_cons] at hline
  rcases hline with ((rfl | hline) | ⟨client, -, rfl | rfl | hline⟩) | rfl | rfl | hline
  · show 0 + 1 < depthLimit
    decide
  · exact hplain _ line hline
  · trivial
  · show 0 + 1 < depthLimit
    decide
  · exact hplain _ line hline
  · trivial
  · show 1 + 1 < depthLimit
    decide
  · exact hplain _ line hline

/-- The text of a configuration is read as the configuration. -/
theorem ofText_toText : ofText c.toText = .ok c := by
  have htable : Table.ofText c.toText = some c.toTable :=
    (ofText_linesText c.fits_toLines).trans c.foldlM_toLines
  rw [ofText, htable, Option.bind_some, ofTable_toTable]

/-- A quote in a text is escaped, and a name of letters needs no marks. -/
example :
    let c : Config := ⟨⟨3, "debug", .legacy⟩, [⟨1, "0x\"", "02"⟩], ⟨[("burn", "BURN")], by simp⟩⟩
    c.toText = "[node]\nid = 3\nlog_level = \"debug\"\nsigning_scheme = \"legacy\"\n\n" ++
      "[[clients]]\nid = 1\naddress = \"0x\\\"\"\npublic_key = \"02\"\n\n" ++
      "[contract.functions]\nburn = \"BURN\"\n" := by
  decide +kernel

/-- A file with the text of a configuration gives the configuration if it is valid, and otherwise
what is wrong with it. -/
theorem load_toText :
    load (.file (Text.utf8 c.toText.toList)) = (c.validate.map fun _ => c).mapError .config := by
  have hread : ofSource (.file (Text.utf8 c.toText.toList)) = .ok c := by
    rw [ofSource, Source.text_file]
    dsimp only
    rw [ofText_toText]
  rw [load, hread]
  dsimp only
  cases c.validate <;> rfl

end Admission.Config
