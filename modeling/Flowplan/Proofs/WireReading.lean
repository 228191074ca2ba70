import Flowplan.Proofs.CanonicalValue
import Flowplan.Proofs.ParsedDump
import Flowplan.Workflow.Node

/-!
A compiled plan is read back from what is written of it, in whatever order the members stand there.
-/

namespace Flowplan
set_option autoImplicit true

open Flowplan.Json Flowplan.Record

namespace Table

variable {κ α β : Type} [DecidableEq κ]

/-- Two tables have the same keys, with entries for each that are related. The order of the keys
does not matter. -/
structure Alike (R : α → β → Prop) (t : Table κ α) (u : Table κ β) : Prop where
  keys : ∀ key, key ∈ t.keys ↔ key ∈ u.keys
  each : ∀ key a b, t.get? key = some a → u.get? key = some b → R a b

namespace Alike

variable {R : α → β → Prop} {t : Table κ α} {u : Table κ β}

theorem exists_get? (h : Alike R t u) (key : κ) (hb : u.get? key = some b) :
    ∃ a, t.get? key = some a ∧ R a b := by
  obtain ⟨a, ha⟩ := mem_keys_iff_get?.1 ((h.keys key).2 (mem_keys_iff_get?.2 ⟨b, hb⟩))
  exact ⟨a, ha, h.each key a b ha hb⟩

theorem get?_eq_none (h : Alike R t u) (hu : u.get? key = none) : t.get? key = none :=
  get?_of_notMem (mt (h.keys key).1 (get?_eq_none_iff.1 hu))

end Alike
end Table

namespace Json

theorem Alike.exists_obj (h : Alike w (.obj o)) :
    ∃ p, w = .obj p ∧ Table.Alike Alike p o := by
  cases h with
  | obj keys each => exact ⟨_, rfl, keys, each⟩

theorem Alike.exists_arr (h : Alike w (.arr vs)) :
    ∃ ws, w = .arr ws ∧ List.Forall₂ Alike ws vs := by
  cases h with
  | arr length each =>
    refine ⟨_, rfl, List.forall₂_iff_get.2 ⟨length, fun i hi hj => ?_⟩⟩
    exact each i _ _ (List.getElem?_eq_getElem hi) (List.getElem?_eq_getElem hj)

theorem Alike.eq_str (h : Alike w (.str s)) : w = .str s := by
  cases h
  rfl

theorem Alike.eq_int (h : Alike w (.int n)) : w = .int n := by
  cases h
  rfl

end Json

theorem Table.Alike.get?_str {p o : Object} (h : Table.Alike Json.Alike p o)
    (ho : Table.get? o key = some (.str s)) : Table.get? p key = some (.str s) := by
  obtain ⟨w, hw, halike⟩ := h.exists_get? key ho
  rw [hw, halike.eq_str]

theorem Table.Alike.get?_int {p o : Object} (h : Table.Alike Json.Alike p o)
    (ho : Table.get? o key = some (.int n)) : Table.get? p key = some (.int n) := by
  obtain ⟨w, hw, halike⟩ := h.exists_get? key ho
  rw [hw, halike.eq_int]

theorem HasKeys.of_alike {p : Object} {required optional : List String}
    (h : Table.Alike Json.Alike p o) (keys : HasKeys required optional o) :
    HasKeys required optional p where
  all key hkey := (h.keys key).2 (keys.all key hkey)
  only key hkey := keys.only key ((h.keys key).1 hkey)

namespace Record

variable {α β : Type} {read : Json → Checked α} {R : α → β → Prop}

theorem Slot.withDefault_of_absent {f : Slot} {a : α} (hwire : Table.get? o f.wire = none)
    (hname : Table.get? o f.name = none) : f.withDefault o a read = .valid a := by
  have hkey : f.key? o = none := by
    simp [Slot.key?, Table.has, hwire, hname]
  rw [withDefault, hkey]

/-- Items are read one by one, each as what stands for the item of another list. -/
theorem itemsFrom_of_forall₂
    (h : List.Forall₂ (fun w b => ∃ a, read w = .valid a ∧ R a b) ws bs) (i : Nat) :
    ∃ as, itemsFrom read i ws = .valid as ∧ List.Forall₂ R as bs := by
  induction h generalizing i with
  | nil => exact ⟨[], rfl, .nil⟩
  | cons first rest ih =>
    obtain ⟨a, ha, hR⟩ := first
    obtain ⟨as, has, hRs⟩ := ih (i + 1)
    exact ⟨a :: as, by rw [itemsFrom, ha, has]; rfl, .cons hR hRs⟩

theorem entries_of_get? (read : Json → Checked α) {p : Object}
    (h : ∀ e ∈ p, ∃ a, read e.2 = .valid a) :
    ∃ t, entries read p = .valid t ∧ Table.keys t = Table.keys p ∧
      ∀ key a, Table.get? t key = some a → ∃ v, Table.get? p key = some v ∧ read v = .valid a := by
  induction p with
  | nil => exact ⟨[], rfl, rfl, fun key a ha => nomatch ha⟩
  | cons e rest ih =>
    obtain ⟨k, v⟩ := e
    obtain ⟨⟨a, ha⟩, hrest⟩ := List.forall_mem_cons.1 h
    obtain ⟨t, ht, hkeys, hget⟩ := ih hrest
    refine ⟨(k, a) :: t, ?_, ?_, ?_⟩
    · rw [entries, ha, ht]
      rfl
    · exact congrArg (k :: ·) hkeys
    · intro key b hb
      rw [Table.get?] at hb ⊢
      split at hb
      · rename_i hk
        obtain rfl := Option.some.inj hb
        exact ⟨v, if_pos hk, ha⟩
      · rename_i hk
        rw [if_neg hk]
        exact hget key b hb

/-- A table is read entry by entry, each as what stands for the entry of another table. -/
theorem table_of_alike {u : Table String β} (f : β → Json) (hw : WellFormed w)
    (h : Json.Alike w (.obj (u.map fun e => (e.1, f e.2))))
    (hread : ∀ b, ∀ v, WellFormed v → Json.Alike v (f b) → ∃ a, read v = .valid a ∧ R a b) :
    ∃ t, table read w = .valid t ∧ Table.Alike R t u := by
  obtain ⟨p, rfl, hp⟩ := h.exists_obj
  obtain ⟨hkeys, heach⟩ : (Table.keys p).Nodup ∧ ∀ e ∈ p, WellFormed e.2 := by
    cases hw with
    | obj keys each => exact ⟨keys, each⟩
  have hentry (key : String) (v : Json) (hv : Table.get? p key = some v) :
      ∃ b, u.get? key = some b ∧ ∃ a, read v = .valid a ∧ R a b := by
    obtain ⟨w, hw⟩ := Table.mem_keys_iff_get?.1
      ((hp.keys key).1 (Table.mem_keys_iff_get?.2 ⟨v, hv⟩))
    have halike := hp.each key v w hv hw
    rw [Table.get?_map_values] at hw
    obtain ⟨b, hb, rfl⟩ := Option.map_eq_some_iff.1 hw
    exact ⟨b, hb, hread b v (heach (key, v) (Table.mem_of_get? hv)) halike⟩
  obtain ⟨t, ht, htkeys, htget⟩ := entries_of_get? read (p := p) fun e he => by
    obtain ⟨b, -, a, ha, -⟩ := hentry e.1 e.2 (Table.get?_of_mem hkeys he)
    exact ⟨a, ha⟩
  refine ⟨t, ht, fun key => ?_, fun key a b ha hb => ?_⟩
  · rw [htkeys, hp.keys, Table.keys_map_values]
  · obtain ⟨v, hv, hva⟩ := htget key a ha
    obtain ⟨b', hb', a', ha', hR⟩ := hentry key v hv
    obtain rfl := Checked.valid.inj (hva.symm.trans ha')
    obtain rfl := Option.some.inj (hb.symm.trans hb')
    exact hR

/-- A list is read item by item, each as what stands for the item of another list. -/
theorem list_of_alike {bs : List β} (f : β → Json) (hw : WellFormed w)
    (h : Json.Alike w (.arr (bs.map f)))
    (hread : ∀ b ∈ bs, ∀ v, WellFormed v → Json.Alike v (f b) → ∃ a, read v = .valid a ∧ R a b) :
    ∃ as, list read w = .valid as ∧ List.Forall₂ R as bs := by
  obtain ⟨ws, rfl, hws⟩ := h.exists_arr
  have heach : ∀ v ∈ ws, WellFormed v := by
    cases hw with
    | arr each => exact each
  clear hw h
  refine itemsFrom_of_forall₂ ?_ 0
  rw [List.forall₂_map_right_iff] at hws
  induction hws with
  | nil => exact .nil
  | cons first rest ih =>
    obtain ⟨hv, hvs⟩ := List.forall_mem_cons.1 heach
    obtain ⟨hb, hbs⟩ := List.forall_mem_cons.1 hread
    exact .cons (hb _ hv first) (ih hbs hvs)

end Record

theorem Connection.read_of_alike (c : Connection) (h : Json.Alike w c.toJson) :
    Connection.read w = .valid c := by
  obtain ⟨p, rfl, hp⟩ := h.exists_obj
  have keys : HasKeys ["source", "sourceOutput", "target", "targetInput"] [] p :=
    .of_alike hp (.of_keys rfl)
  refine Checked.also_eq_valid.2 ⟨?_, keys.extras rfl⟩
  have hsource : Table.get? p "source" = some (.str c.source) := hp.get?_str rfl
  have hsourceOutput : Table.get? p "sourceOutput" = some (.str c.sourceOutput) := hp.get?_str rfl
  have htarget : Table.get? p "target" = some (.str c.target) := hp.get?_str rfl
  have htargetInput : Table.get? p "targetInput" = some (.str c.targetInput) := hp.get?_str rfl
  rw [ofMembers, Slot.required_of_get? hsource, Slot.withDefault_of_get? hsourceOutput,
    Slot.required_of_get? htarget, Slot.withDefault_of_get? htargetInput]
  rfl

/-- Two connection maps have the same connections in the same order at each outlet of each node. -/
def ConnectionMap.Alike (m n : ConnectionMap) : Prop := Table.Alike (Table.Alike (· = ·)) m n

theorem ConnectionMap.read_of_alike {n : ConnectionMap} (hw : WellFormed w)
    (h : Json.Alike w n.toJson) : ∃ m, ConnectionMap.read w = .valid m ∧ m.Alike n := by
  refine table_of_alike outletsToJson hw h fun outlets v hv houtlets => ?_
  refine table_of_alike (fun cs => .arr (cs.map Connection.toJson)) hv houtlets
    fun cs v hv hcs => ?_
  obtain ⟨ds, hds, hall⟩ := list_of_alike (R := (· = ·)) Connection.toJson hv hcs
    fun c _ v _ hc => ⟨c, Connection.read_of_alike c hc, rfl⟩
  exact ⟨ds, hds, List.forall₂_eq_eq_eq ▸ hall⟩

/-- Two nodes are the same up to the order of the members in their parameters. -/
structure Node.Alike (m n : Node) : Prop where
  id : m.id = n.id
  name : m.name = n.name
  type : m.type = n.type
  typeVersion : m.typeVersion = n.typeVersion
  position : m.position = n.position
  parameters : Json.Alike (.obj m.parameters) (.obj n.parameters)
  webhookId : m.webhookId = n.webhookId

/-- The members of a node that are always written. -/
theorem Node.keys_of_alike {n : Node} (h : Table.Alike Json.Alike p (n.members ++ u))
    (hu : ∀ key ∈ Table.keys u, key = "webhookId") :
    HasKeys ["id", "name", "type", "typeVersion", "position", "parameters"] ["webhookId"] p := by
  have hkeys : Table.keys (n.members ++ u) =
      ["id", "name", "type", "typeVersion", "position", "parameters"] ++ Table.keys u :=
    List.map_append ..
  refine .of_alike h ⟨fun key hkey => ?_, fun key hkey => ?_⟩
  · rw [hkeys]
    exact List.mem_append_left _ hkey
  · rw [hkeys] at hkey
    refine List.mem_append.2 ((List.mem_append.1 hkey).imp_right fun hkey => ?_)
    exact List.mem_singleton.2 (hu key hkey)

theorem Node.read_of_alike {n : Node} (hid : isId n.id = true)
    (hfinite : (Json.obj n.parameters).allFinite = true) (h : Json.Alike w n.toWire) :
    ∃ m, Node.read w = .valid m ∧ m.Alike n := by
  obtain ⟨p, rfl, hp⟩ := h.exists_obj
  have hleft (key : String) {v : Json} {u : Object} (hv : Table.get? n.members key = some v) :
      Table.get? (n.members ++ u) key = some v := by
    rw [Table.get?_append, hv]
    rfl
  have hname : Table.get? p "name" = some (.str n.name) := hp.get?_str (hleft "name" rfl)
  have htype : Table.get? p "type" = some (.str n.type) := hp.get?_str (hleft "type" rfl)
  have hversion : Table.get? p "typeVersion" = some (.int n.typeVersion) :=
    hp.get?_int (hleft "typeVersion" rfl)
  have hident : Table.get? p "id" = some (.str n.id) := hp.get?_str (hleft "id" rfl)
  obtain ⟨position, hposition, hpair⟩ := hp.exists_get? "position" (hleft _ rfl)
  obtain ⟨parameters, hparameters, hobject⟩ := hp.exists_get? "parameters" (hleft _ rfl)
  have hreadId : readId (.str n.id) = .valid n.id := if_pos hid
  have hreadPosition : integerPair position = .valid n.position := by
    obtain ⟨ws, rfl, hws⟩ := hpair.exists_arr
    cases hws with
    | cons hx hws =>
      cases hws with
      | cons hy hws =>
        cases hws
        rw [hx.eq_int, hy.eq_int]
        rfl
  rw [finite_eq_self _ hfinite] at hobject
  obtain ⟨q, rfl, -⟩ := hobject.exists_obj
  have hwebhook : (Slot.mk "webhookId" "webhook_id").withDefault p none (orNull string) =
      .valid n.webhookId := by
    cases hw : n.webhookId with
    | none =>
      simp only [hw] at hp
      exact Slot.withDefault_of_absent (hp.get?_eq_none rfl) (hp.get?_eq_none rfl)
    | some webhookId =>
      simp only [hw] at hp
      rw [Slot.withDefault_of_get? (hp.get?_str (s := webhookId) rfl)]
      rfl
  refine ⟨⟨n.id, n.name, n.type, n.typeVersion, n.position, q, n.webhookId⟩, ?_, ?_⟩
  · have keys := Node.keys_of_alike hp (by
      cases n.webhookId <;> simp [Table.keys])
    refine Checked.also_eq_valid.2 ⟨?_, keys.extras rfl⟩
    rw [ofMembers, Slot.required_of_get? hident, Slot.required_of_get? hname,
      Slot.required_of_get? htype, Slot.required_of_get? hversion,
      Slot.withDefault_of_get? hposition, Slot.withDefault_of_get? hparameters, hwebhook, hreadId,
      hreadPosition]
    rfl
  · exact ⟨rfl, rfl, rfl, rfl, rfl, hobject, rfl⟩

/-- Two workflows are the same up to the order of what has no order: the members in the parameters
of nodes, and the nodes and outlets by which connections are listed. -/
structure Workflow.Alike (w v : Workflow) : Prop where
  nodes : List.Forall₂ Node.Alike w.nodes v.nodes
  connections : w.connections.Alike v.connections
  name : w.name = v.name

structure CompileResult.Alike (r s : CompileResult) : Prop where
  workflow : r.workflow.Alike s.workflow
  name : r.name = s.name

theorem Json.WellFormed.of_get? (h : WellFormed (.obj p)) (hv : Table.get? p key = some v) :
    WellFormed v := by
  cases h with
  | obj keys each => exact each _ (Table.mem_of_get? hv)

theorem Workflow.read_of_alike {v : Workflow} (hids : ∀ n ∈ v.nodes, Node.isId n.id = true)
    (hfinite : ∀ n ∈ v.nodes, (Json.obj n.parameters).allFinite = true) (hw : WellFormed w)
    (h : Json.Alike w v.toWire) : ∃ u, Workflow.read w = .valid u ∧ u.Alike v := by
  obtain ⟨p, rfl, hp⟩ := h.exists_obj
  have keys : HasKeys ["nodes", "connections", "name"] [] p := .of_alike hp (.of_keys rfl)
  have hname : Table.get? p "name" = some (.str v.name) := hp.get?_str rfl
  obtain ⟨nodes, hnodes, hlist⟩ := hp.exists_get? "nodes" rfl
  obtain ⟨connections, hconnections, htable⟩ := hp.exists_get? "connections" rfl
  obtain ⟨ns, hns, hall⟩ := list_of_alike (R := Node.Alike) Node.toWire (hw.of_get? hnodes) hlist
    fun n hn w _ halike => Node.read_of_alike (hids n hn) (hfinite n hn) halike
  obtain ⟨m, hm, halike⟩ := ConnectionMap.read_of_alike (hw.of_get? hconnections) htable
  refine ⟨⟨ns, m, v.name⟩, ?_, ⟨hall, halike, rfl⟩⟩
  refine Checked.also_eq_valid.2 ⟨?_, keys.extras rfl⟩
  rw [ofMembers, Slot.required_of_get? hnodes, Slot.withDefault_of_get? hconnections,
    Slot.required_of_get? hname, hns, hm]
  rfl

theorem CompileResult.read_of_alike {r : CompileResult}
    (hids : ∀ n ∈ r.workflow.nodes, Node.isId n.id = true)
    (hfinite : ∀ n ∈ r.workflow.nodes, (Json.obj n.parameters).allFinite = true)
    (hw : WellFormed w) (h : Json.Alike w r.toWire) :
    ∃ s, CompileResult.read w = .valid s ∧ s.Alike r := by
  obtain ⟨p, rfl, hp⟩ := h.exists_obj
  have keys : HasKeys ["workflow", "name"] [] p := .of_alike hp (.of_keys rfl)
  have hname : Table.get? p "name" = some (.str r.name) := hp.get?_str rfl
  obtain ⟨workflow, hworkflow, halike⟩ := hp.exists_get? "workflow" rfl
  obtain ⟨u, hu, hsame⟩ := Workflow.read_of_alike hids hfinite (hw.of_get? hworkflow) halike
  refine ⟨⟨u, r.name⟩, ?_, ⟨hsame, rfl⟩⟩
  refine Checked.also_eq_valid.2 ⟨?_, keys.extras rfl⟩
  rw [ofMembers, Slot.required_of_get? hworkflow, Slot.required_of_get? hname, hu]
  rfl

end Flowplan
