import FleetStore.Config.Load
import FleetStore.Proofs.Except
import FleetStore.Proofs.Value.Width

/-! # Parameters of loaded configurations

The parameters of statements are taken over as documents. A plain scalar is read as an
integer only if it has 64 bits, so whatever file a configuration is loaded from, its
parameters hold no other integers.
-/

namespace FleetStore

/-- All integers in the parameters of statements have 64 bits. -/
def Config.Bounded (c : Config) : Prop :=
  ∀ s ∈ c.statements, ∀ param ∈ s.params, param.Bounded

/-! ## Documents of nodes -/

namespace Yaml

theorem bounded_of_readFloat {cs : List Char} {j : Json} (ok : readFloat? cs = some j) :
    j.Bounded := by
  unfold readFloat? at ok
  simp only at ok
  split at ok
  · obtain rfl := Option.some.inj ok
    exact .null
  · split at ok
    · contradiction
    · split at ok
      · obtain rfl := Option.some.inj ok
        exact .float _
      · contradiction

theorem bounded_of_readPlain {text : String} {j : Json} (ok : readPlain? text = some j) :
    j.Bounded := by
  have float : ((readFloat? text.toList).getD (.str text)).Bounded := by
    cases read : readFloat? text.toList with
    | none => exact .str text
    | some j => exact bounded_of_readFloat read
  unfold readPlain? at ok
  split at ok
  · obtain rfl := Option.some.inj ok
    exact .null
  · split at ok
    · obtain rfl := Option.some.inj ok
      exact .bool _
    · simp only at ok
      split at ok
      · obtain rfl := Option.some.inj ok
        exact float
      · next n _ =>
          split at ok
          · next fits =>
              obtain rfl := Option.some.inj ok
              exact .int n fits
          · split at ok
            · contradiction
            · obtain rfl := Option.some.inj ok
              exact float

namespace Node

mutual
theorem bounded_of_document {levels : Nat} {node : Node} {j : Json}
    (ok : document? levels node = some j) : j.Bounded := by
  cases node with
  | scalar plain text =>
      cases plain with
      | true => exact bounded_of_readPlain ok
      | false =>
          obtain rfl := Option.some.inj ok
          exact .str text
  | sequence items =>
      unfold document? at ok
      split at ok
      · contradiction
      · obtain ⟨documents, read, rfl⟩ := Option.map_eq_some_iff.1 ok
        exact .arr _ (bounded_of_documents read)
  | mapping entries =>
      unfold document? at ok
      split at ok
      · contradiction
      · obtain ⟨members, read, rfl⟩ := Option.map_eq_some_iff.1 ok
        refine .obj _ fun m member => ?_
        exact bounded_of_members read m ((Dict.mem_insertAll member).resolve_left nofun)
  | broken => contradiction

theorem bounded_of_documents {levels : Nat} {nodes : List Node} {documents : List Json}
    (ok : documents? levels nodes = some documents) : ∀ j ∈ documents, j.Bounded := by
  cases nodes with
  | nil =>
      obtain rfl := Option.some.inj ok
      simp
  | cons node rest =>
      obtain ⟨first, read, ok⟩ := Option.bind_eq_some_iff.1 ok
      obtain ⟨more, others, same⟩ := Option.bind_eq_some_iff.1 ok
      obtain rfl := Option.some.inj same
      intro j member
      rcases List.mem_cons.1 member with rfl | later
      · exact bounded_of_document read
      · exact bounded_of_documents others j later

theorem bounded_of_members {levels : Nat} {entries : List (Node × Node)}
    {members : List (String × Json)} (ok : members? levels entries = some members) :
    ∀ m ∈ members, m.2.Bounded := by
  cases entries with
  | nil =>
      obtain rfl := Option.some.inj ok
      simp
  | cons entry rest =>
      obtain ⟨name, _, ok⟩ := Option.bind_eq_some_iff.1 ok
      obtain ⟨value, read, ok⟩ := Option.bind_eq_some_iff.1 ok
      obtain ⟨more, others, same⟩ := Option.bind_eq_some_iff.1 ok
      obtain rfl := Option.some.inj same
      intro m member
      rcases List.mem_cons.1 member with rfl | later
      · exact bounded_of_document read
      · exact bounded_of_members others m later
end

end Node

end Yaml

/-! ## Decoding -/

theorem mem_of_mapM_ok {ε α β : Type} {f : α → Except ε β} {l : List α} {l' : List β}
    (ok : l.mapM f = .ok l') : ∀ y ∈ l', ∃ x ∈ l, f x = .ok y := by
  intro y member
  have made : Except.ok y ∈ l.map f := by
    rw [mapM_eq_ok_iff.1 ok]
    exact List.mem_map_of_mem member
  exact List.mem_map.1 made

namespace Config

variable {σ α : Type} [Source σ]

theorem shaped_ok {o : Option α} {x : α} (ok : shaped o = .ok x) : o = some x := by
  cases o with
  | none => contradiction
  | some y =>
      obtain rfl := Except.ok.inj ok
      rfl

theorem listOf_ok {decode : σ → Read α} {node : σ} {l : List α} (ok : listOf decode node = .ok l) :
    ∀ x ∈ l, ∃ item, decode item = .ok x := by
  obtain ⟨items, _, ok⟩ := bind_eq_ok_iff.1 ok
  intro x member
  obtain ⟨item, _, made⟩ := mem_of_mapM_ok ok x member
  exact ⟨item, made⟩

/-- What holds before any field is read and is kept by each of them holds of the group. -/
theorem readGroup_keeps {P : α → Prop} {required optional : List String} {blank : α}
    {set : α → String → σ → Read α} {node : σ} {found : α} (start : P blank)
    (kept : ∀ a field part a', P a → set a field part = .ok a' → P a')
    (ok : readGroup required optional blank set node = .ok found) : P found := by
  have fields : ∀ (entries : List (String × σ)) (seen : List String) (a a' : α), P a →
      readFields (required ++ optional) seen set a entries = .ok a' → P a' := by
    intro entries
    induction entries with
    | nil =>
        intro seen a a' before ok
        obtain rfl := Except.ok.inj ok
        exact before
    | cons entry rest ih =>
        intro seen a a' before ok
        unfold readFields at ok
        split at ok
        · exact ih seen a a' before ok
        · split at ok
          · contradiction
          · obtain ⟨next, done, ok⟩ := bind_eq_ok_iff.1 ok
            exact ih _ next a' (kept a _ _ next before done) ok
  obtain ⟨group, _, ok⟩ := bind_eq_ok_iff.1 ok
  obtain ⟨all, read, ok⟩ := bind_eq_ok_iff.1 ok
  split at ok
  · obtain rfl := Except.ok.inj ok
    exact fields group.entries [] blank all start read
  · contradiction

theorem statementEntry_bounded {node : Yaml.Node} {s : StatementEntry}
    (ok : statementEntry node = .ok s) : ∀ param ∈ s.params, param.Bounded := by
  refine readGroup_keeps (P := fun s => ∀ param ∈ s.params, param.Bounded) (by simp)
    (fun a field part a' before ok => ?_) ok
  split at ok
  · obtain ⟨_, _, same⟩ := bind_eq_ok_iff.1 ok
    obtain rfl := Except.ok.inj same
    exact before
  · obtain ⟨_, _, same⟩ := bind_eq_ok_iff.1 ok
    obtain rfl := Except.ok.inj same
    exact before
  · obtain ⟨params, read, same⟩ := bind_eq_ok_iff.1 ok
    obtain rfl := Except.ok.inj same
    intro param member
    obtain ⟨item, made⟩ := listOf_ok read param member
    exact Yaml.Node.bounded_of_document (shaped_ok made)

theorem decode_bounded {node : Yaml.Node} {c : Config} (ok : decode node = .ok c) : c.Bounded := by
  refine readGroup_keeps (P := Config.Bounded) (by simp [Bounded])
    (fun a field part a' before ok => ?_) ok
  split at ok
  · obtain ⟨_, _, same⟩ := bind_eq_ok_iff.1 ok
    obtain rfl := Except.ok.inj same
    exact before
  · obtain ⟨_, _, same⟩ := bind_eq_ok_iff.1 ok
    obtain rfl := Except.ok.inj same
    exact before
  · obtain ⟨statements, read, same⟩ := bind_eq_ok_iff.1 ok
    obtain rfl := Except.ok.inj same
    intro s member
    obtain ⟨item, made⟩ := listOf_ok read s member
    exact statementEntry_bounded made

/-- Whatever file a configuration is loaded from, its parameters are bounded. -/
theorem bounded_of_load {file : Option String} {c : Config} (ok : load file = .ok c) :
    c.Bounded := by
  unfold load at ok
  split at ok
  · contradiction
  · split at ok
    · contradiction
    · next found =>
        split at ok
        · contradiction
        · obtain rfl := Except.ok.inj ok
          obtain ⟨c, decoded, whole⟩ := bind_eq_ok_iff.1 found
          split at whole
          · obtain rfl := Except.ok.inj whole
            exact decode_bounded decoded
          · contradiction

end Config

end FleetStore
