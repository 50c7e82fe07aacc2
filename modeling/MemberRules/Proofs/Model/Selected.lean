/-
# Members as reflection and as selectors find them

Two walks along the line of a type decide which type a member belongs to.  A selector takes the nearest
type that holds the name in any way.  Reflection does the same for announced members; but for computed
members it looks for the nearest type that has the name as a computed member, and passes over types that
hold the name as anything else.  So where a nearer type puts a value or a function in the place of a
computed member of one of its bases, reflection still gives the member of the base, and a selector that
of the nearer type.

Rules stand in the registry with their members.  So the declared rules of such a member and those that
are configured for its name do not come together.

* `Schema.Hides`: a member whose name a nearer type holds, too.
* `Schema.Found`: how reflection comes to a member.
* `reflected_iff_not_hidden`: a member that reflection gives is the one that its name selects exactly if
  it is not hidden.
-/
import MemberRules.Proofs.Registry.Adaptation
import MemberRules.Proofs.Registry.Representation

namespace MemberRules

open MemberRules.Computation

variable {s : Schema} {t u : TypeId} {m ref : MemberRef} {name : String}

/-! ## 1. The nearest type with a name -/

namespace Schema

/-- The types along the line of a type that come before another one. -/
def nearer (s : Schema) (t u : TypeId) : List TypeId := (s.lineIds t).takeWhile (· != u)

/-- A type hides a member of one of its bases: a type that is nearer than the base holds the name. -/
def Hides (s : Schema) (t : TypeId) (m : MemberRef) : Prop :=
  ∃ u ∈ s.nearer t m.declaring, s.holds u m.name = true

/-- The line of a type, cut in front of one of its types. -/
theorem exists_nearer (h : u ∈ s.lineIds t) :
    u ∉ s.nearer t u ∧ ∃ after, s.lineIds t = s.nearer t u ++ u :: after := by
  obtain ⟨before, after, hline, hnot⟩ := List.eq_append_cons_of_mem h
  have hbefore : ∀ v ∈ before, (v != u) = true := fun v hv =>
    bne_iff_ne.mpr fun heq => hnot (heq ▸ hv)
  have hnearer : s.nearer t u = before := by
    unfold nearer
    rw [hline, List.takeWhile_append_of_pos hbefore, List.takeWhile_cons_of_neg (by simp),
      List.append_nil]
  rw [hnearer]
  exact ⟨hnot, after, hline⟩

/-- The nearest type with a name is one that holds it exactly if no nearer one does. -/
theorem declaring?_eq_iff (hmem : u ∈ s.lineIds t) (hholds : s.holds u name = true) :
    s.declaring? t name = some u ↔ ¬ ∃ v ∈ s.nearer t u, s.holds v name = true := by
  obtain ⟨hself, after, hline⟩ := exists_nearer hmem
  have hfind : s.declaring? t name =
      ((s.nearer t u).find? fun id => s.holds id name).or (some u) := by
    unfold declaring?
    rw [hline, List.find?_append, List.find?_cons, hholds]
  rw [hfind]
  constructor
  · rintro h ⟨v, hv, hvholds⟩
    cases hfirst : (s.nearer t u).find? fun id => s.holds id name with
    | none => exact List.find?_eq_none.mp hfirst v hv hvholds
    | some w =>
      rw [hfirst] at h
      cases h
      exact hself (List.mem_of_find?_eq_some hfirst)
  · intro h
    rw [List.find?_eq_none.mpr fun v hv hvholds => h ⟨v, hv, hvholds⟩]
    rfl

theorem holds_of_declaring? (h : s.declaring? t name = some u) :
    u ∈ s.lineIds t ∧ s.holds u name = true := by
  have hholds := List.find?_some h
  exact ⟨List.mem_of_find?_eq_some h, hholds⟩

/-- A type holds what it defines. -/
theorem holds_of_ownKind? {k : MemberKind} (h : s.ownKind? name u = some k) :
    s.holds u name = true := by
  cases u with
  | declared n =>
    obtain ⟨body, hbody, -⟩ := Option.map_eq_some_iff.mp h
    obtain ⟨d, hfind, hdefined⟩ := Option.bind_eq_some_iff.mp hbody
    show (s.find? n).any (fun d => d.holds name) = true
    rw [hfind]
    simp [TypeDecl.holds, TypeDecl.declares, hdefined]
  | builtin b =>
    show b.holds name = true
    by_contra hnot
    have hnone : s.ownKind? name (.builtin b) = none := if_neg hnot
    rw [hnone] at h
    cases h
  | enumeration n => cases h

/-- A member is read as the nearest type that holds the name defines it. -/
theorem kindOf_eq {k : MemberKind} (hmem : u ∈ s.lineIds t) (hkind : s.ownKind? name u = some k)
    (hfirst : ¬ ∃ v ∈ s.nearer t u, s.holds v name = true) : s.kindOf t name = k := by
  obtain ⟨-, after, hline⟩ := exists_nearer hmem
  have hnone : (s.nearer t u).findSome? (s.ownKind? name) = none := by
    refine List.findSome?_eq_none_iff.mpr fun v hv => ?_
    cases hown : s.ownKind? name v with
    | none => rfl
    | some k' => exact absurd ⟨v, hv, holds_of_ownKind? hown⟩ hfirst
  unfold kindOf
  rw [hline, List.findSome?_append, hnone, List.findSome?_cons, hkind]
  rfl

/-- The member of a name is one of the nearest type that holds it. -/
theorem member_eq_ok_iff (hname : name.startsWith "__" = false) :
    s.member t name = .ok m ↔ s.declaring? t name = some m.declaring ∧ m.name = name ∧
      m.kind = s.kindOf t name := by
  have hmember : s.member? t name = (s.declaring? t name).map fun d => ⟨d, name, s.kindOf t name⟩ :=
    if_neg (by rw [hname]; exact Bool.false_ne_true)
  unfold member
  rw [hmember]
  cases s.declaring? t name with
  | none => simp
  | some d =>
    obtain ⟨declaring, name', kind⟩ := m
    simp only [Option.map_some, Except.ok.injEq, MemberRef.mk.injEq, Option.some.injEq]
    rw [eq_comm (a := name), eq_comm (a := s.kindOf t name)]

/-- Names with two leading low lines are no members. -/
theorem startsWith_of_member (h : s.member t name = .ok m) : name.startsWith "__" = false := by
  refine Bool.eq_false_iff.mpr fun hname => ?_
  have hnone : s.member? t name = none := if_pos hname
  unfold member at h
  rw [hnone] at h
  cases h

/-! ## 2. How reflection comes to a member -/

/-- The members that reflection gives: those that are announced, under their names, and the computed
ones, as some type along the line defines them. -/
inductive Found (s : Schema) (t : TypeId) : MemberRef → Prop
  | announced {m : MemberRef} : s.member t m.name = .ok m → Found s t m
  | computed {id : TypeId} {name : String} : id ∈ s.lineIds t → name.startsWith "_" = false →
      s.ownKind? name id = some .property → Found s t ⟨id, name, .property⟩

theorem mem_lineOf {d : TypeDecl} (h : d ∈ s.lineOf t) :
    d.id ∈ s.lineIds t ∧ s.find? d.name = some d := by
  obtain ⟨id, hid, hd⟩ := List.mem_filterMap.mp h
  cases id with
  | declared n =>
    have hfind : s.find? n = some d := hd
    have hname : d.name = n := by simpa using List.find?_some hfind
    exact ⟨by rw [TypeDecl.id, hname]; exact hid, by rw [hname]; exact hfind⟩
  | builtin b => cases hd
  | enumeration n => cases hd

/-- The computed members of a type itself. -/
theorem ownKind?_of_mem_properties {d : TypeDecl} {returns : Option Hint}
    (hd : s.find? d.name = some d) (h : (name, returns) ∈ d.properties) :
    name.startsWith "_" = false ∧ s.ownKind? name d.id = some .property := by
  obtain ⟨⟨name', body⟩, hmem, hproperty⟩ := List.mem_filterMap.mp h
  obtain ⟨n, -, hdefined⟩ := List.mem_filterMap.mp hmem
  obtain ⟨body', hbody, heq⟩ := Option.map_eq_some_iff.mp hdefined
  cases heq
  cases body with
  | property e returns' setter =>
    dsimp only at hproperty
    split at hproperty
    · cases hproperty
    · rename_i hname
      cases hproperty
      refine ⟨by simpa using hname, ?_⟩
      show ((s.find? d.name).bind fun d => d.defined? name).map kindOfBody = _
      rw [hd, Option.bind_some, hbody]
      rfl
  | _ => cases hproperty

/-- The computed members along a line are those of its types. -/
theorem mem_computedMembers {announced : List String} {p : TypeId × String × Option Hint}
    (h : p ∈ s.computedMembers t announced) :
    ∃ d ∈ s.lineOf t, p.1 = d.id ∧ (p.2.1, p.2.2) ∈ d.properties := by
  have hfold : ∀ (ps kept : List (TypeId × String × Option Hint)),
      p ∈ ps.foldl (fun (kept : List (TypeId × String × Option Hint)) p =>
        if kept.any fun q => q.2.1 == p.2.1 then kept else kept ++ [p]) kept → p ∈ kept ++ ps := by
    intro ps
    induction ps with
    | nil => exact fun kept h => by simpa using h
    | cons q ps ih =>
      intro kept h
      have hmem := ih _ h
      dsimp only at hmem
      split at hmem
      · rcases List.mem_append.mp hmem with hmem | hmem
        · exact List.mem_append_left _ hmem
        · exact List.mem_append_right _ (List.mem_cons_of_mem q hmem)
      · simpa using hmem
  have hall := hfold _ [] (List.mem_filter.mp h).1
  obtain ⟨d, hd, hp⟩ := List.mem_flatMap.mp hall
  obtain ⟨q, hq, rfl⟩ := List.mem_map.mp hp
  exact ⟨d, hd, rfl, hq⟩

theorem member_of_mem_annotatedMember {p : TypeId × String × Option Hint} {ms : List MemberInfo}
    (h : s.annotatedMember p = .ok ms) : ∀ m ∈ ms, m.member = ⟨p.1, p.2.1, .property⟩ := by
  intro m hm
  rcases annotatedMember_cases h with rfl | ⟨m', rfl, hm'⟩
  · cases hm
  · rw [List.mem_singleton.mp hm]
    exact hm'

theorem found_of_mem_announcedMembers {fields : List MemberInfo}
    (h : s.announcedMembers t = .ok fields) : ∀ m ∈ fields, s.Found t m.member := by
  obtain ⟨hs, -, h⟩ := except_bind_eq_ok.mp h
  intro m hm
  obtain ⟨e, -, he⟩ := exists_of_mem_mapM h hm
  obtain ⟨ref, href, he⟩ := except_bind_eq_ok.mp he
  cases he
  exact .announced (member_name href ▸ href)

theorem found_of_mem_ownMembers {own : List MemberInfo} (h : s.ownMembers t = .ok own) :
    ∀ m ∈ own, s.Found t m.member := by
  obtain ⟨fields, hfields, h⟩ := except_bind_eq_ok.mp h
  obtain ⟨computed, hcomputed, h⟩ := except_bind_eq_ok.mp h
  cases h
  intro m hm
  rcases List.mem_append.mp hm with hm | hm
  · exact found_of_mem_announcedMembers hfields m hm
  · obtain ⟨ms, hms, hm⟩ := List.mem_flatten.mp hm
    obtain ⟨p, hp, hms⟩ := exists_of_mem_mapM hcomputed hms
    obtain ⟨d, hd, hid, hproperty⟩ := mem_computedMembers hp
    obtain ⟨hline, hfind⟩ := mem_lineOf hd
    obtain ⟨hname, hkind⟩ := ownKind?_of_mem_properties hfind hproperty
    rw [member_of_mem_annotatedMember hms m hm, hid]
    exact .computed hline hname hkind

/-- **How reflection comes to the members of a type.** -/
theorem Reads.found {ms : List MemberInfo} (h : s.Reads t ms) : ∀ m ∈ ms, s.Found t m.member := by
  obtain ⟨own, sources, hown, rfl⟩ := h.exists_own
  intro m hm
  obtain ⟨m', hm', rfl⟩ := List.mem_map.mp hm
  exact found_of_mem_ownMembers hown m' hm'

/-! ## 3. The member that a name selects -/

/-- A member that is announced is not hidden. -/
theorem not_hides_of_member (h : s.member t m.name = .ok m) : ¬ s.Hides t m := by
  obtain ⟨hdeclaring, -⟩ := (member_eq_ok_iff (startsWith_of_member h)).mp h
  obtain ⟨hmem, hholds⟩ := holds_of_declaring? hdeclaring
  exact (declaring?_eq_iff hmem hholds).mp hdeclaring

/-- **A member that reflection gives is the one that its name selects** exactly if it is not hidden.
Its identity is that of the selected one only then, too. -/
theorem Found.selects (h : s.Found t m) : ∃ ref, s.member t m.name = .ok ref ∧
    (ref = m ↔ ¬ s.Hides t m) ∧ (ref.key = m.key ↔ ¬ s.Hides t m) := by
  cases h with
  | announced h =>
    have hnot := not_hides_of_member h
    exact ⟨m, h, iff_of_true rfl hnot, iff_of_true rfl hnot⟩
  | @computed id name hmem hname hkind =>
    have hholds := holds_of_ownKind? hkind
    have hlow : name.startsWith "__" = false := by
      refine Bool.eq_false_iff.mpr fun h => Bool.eq_false_iff.mp hname ?_
      rw [String.startsWith_string_iff] at h ⊢
      exact (List.prefix_append ['_'] ['_']).trans h
    obtain ⟨d, hd⟩ : ∃ d, s.declaring? t name = some d := by
      refine Option.isSome_iff_exists.mp (List.find?_isSome.mpr ⟨id, hmem, hholds⟩)
    have hnearest := declaring?_eq_iff hmem hholds
    rw [hd, Option.some.injEq] at hnearest
    refine ⟨⟨d, name, s.kindOf t name⟩, (member_eq_ok_iff hlow).mpr ⟨hd, rfl, rfl⟩, ?_, ?_⟩
    · refine ⟨fun heq => hnearest.mp (congrArg MemberRef.declaring heq), fun hnot => ?_⟩
      rw [hnearest.mpr hnot, kindOf_eq hmem hkind hnot]
    · refine ⟨fun heq => hnearest.mp (congrArg MemberKey.declaring heq), fun hnot => ?_⟩
      rw [hnearest.mpr hnot]
      rfl

end Schema

/-! ## 4. Rules of one member -/

/-- Two rules of a type stand together, in the rules of one member. -/
def Registry.Together (reg : Registry) (t : TypeId) (r r' : Rule) : Prop :=
  ∃ g ∈ reg.groupsOf t, r ∈ g.rules ∧ r' ∈ g.rules

/-- In a registry in order two rules stand together exactly if their members have one identity. -/
theorem Registry.InOrder.together_iff {reg : Registry} {r r' : Rule} (h : reg.InOrder)
    (hr : r ∈ reg.rulesOf t) (hr' : r' ∈ reg.rulesOf t) :
    reg.Together t r r' ↔ r.member.key = r'.member.key := by
  have hgroup : ∀ g ∈ reg.groupsOf t, reg.rulesOfMember t g.member.key = g.rules := fun g hg =>
    rulesAt_of_mem (h.members t) (List.mem_filter.mp hg).1
  constructor
  · rintro ⟨g, hg, hrg, hrg'⟩
    rw [← hgroup g hg] at hrg hrg'
    rw [h.home t _ r hrg, h.home t _ r' hrg']
  · intro hkey
    obtain ⟨g, hg, hrg⟩ := List.mem_flatMap.mp hr
    refine ⟨g, hg, hrg, ?_⟩
    rw [← hgroup g hg] at hrg ⊢
    rw [← h.home t _ r hrg, hkey]
    exact h.mem_rulesOfMember hr'

/-- **The members that reflection gives have different names, and each is the one that its name selects**
exactly if it is not hidden: the identity, the kind, and the place in the registry of the rules that were
declared for it and of those that are configured for what its name selects. -/
theorem reflected_iff_not_hidden {known : Reflected} {ms : List MemberInfo}
    (hfaithful : s.Faithful known) (h : (s.reflect t known).1 = .ok ms) :
    (Schema.memberNames ms).Nodup ∧ ∀ m ∈ ms, ∃ ref,
      s.select t (.name m.member.name) = .ok ref ∧ ref.name = m.member.name ∧
      (ref = m.member ↔ ¬ s.Hides t m.member) ∧
      (ref.key = m.member.key ↔ ¬ s.Hides t m.member) ∧
      ∀ (reg : Registry) (r r' : Rule), reg.InOrder → r ∈ reg.rulesOf t → r' ∈ reg.rulesOf t →
        r.value ∈ m.placedRules s t → r'.member = ref →
          (reg.Together t r r' ↔ ¬ s.Hides t m.member) := by
  have hreads := (Schema.faithful_reflect s t hfaithful).2 ms h
  refine ⟨hreads.nodup, fun m hm => ?_⟩
  obtain ⟨ref, hselect, hsame, hkey⟩ := (hreads.found m hm).selects
  refine ⟨ref, hselect, Schema.member_name hselect, hsame, hkey, ?_⟩
  intro reg r r' horder hr hr' hplaced hmember
  have hvalue : r.value.member = m.member := MemberInfo.member_of_mem_placedRules hplaced
  have hdeclared : r.member = m.member := hvalue
  rw [horder.together_iff hr hr', hdeclared, hmember, eq_comm, hkey]

/-! ### A total that was computed

The total of an invoice is computed and required, and a fixed invoice has a number in its place. -/

namespace Invoice

def invoice : TypeId := .declared "Invoice"

def fixed : TypeId := .declared "Fixed"

def schema : Schema := ⟨[
  { name := "Invoice"
    members := [
      ⟨"total", .property (.const (.plain (.int 1)))
        (some (.annotated (.type (.builtin .int)) [{ check := .required false }])) none⟩]
    line := [invoice] },
  { name := "Fixed"
    members := [⟨"total", .constant (.int 5)⟩]
    bases := ["Invoice"]
    line := [fixed, invoice] }]⟩

/-- The total that reflection gives for fixed invoices. -/
def reflected : MemberRef := ⟨invoice, "total", .property⟩

/-- The total that its name selects. -/
def selected : MemberRef := ⟨fixed, "total", .field⟩

theorem reflect_fixed :
    ∃ ms, (schema.reflect fixed []).1 = .ok ms ∧ ∃ m ∈ ms, m.member = reflected := by
  have hmembers : (schema.reflect fixed []).1.toOption.map (List.map MemberInfo.member) =
      some [reflected] := by decide +kernel
  obtain ⟨ms, hms, hall⟩ := Option.map_eq_some_iff.mp hmembers
  exact ⟨ms, ok_of_toOption hms, List.mem_map.mp (hall ▸ List.mem_singleton.mpr rfl)⟩

theorem select_fixed : schema.select fixed (.name "total") = .ok selected :=
  ok_of_toOption (by decide +kernel)

end Invoice

/-- The total of fixed invoices is hidden, so its name selects another member. -/
theorem reflected_iff_not_hidden_invoice : Invoice.schema.Hides Invoice.fixed Invoice.reflected ∧
    Invoice.selected.key ≠ Invoice.reflected.key := by
  obtain ⟨ms, hms, m, hm, hmember⟩ := Invoice.reflect_fixed
  obtain ⟨-, hall⟩ := reflected_iff_not_hidden (Schema.faithful_nil Invoice.schema) hms
  obtain ⟨ref, hselect, -, -, hkey, -⟩ := hall m hm
  rw [hmember] at hselect hkey
  have hhides : Invoice.schema.Hides Invoice.fixed Invoice.reflected :=
    ⟨Invoice.fixed, by decide +kernel, by decide +kernel⟩
  obtain rfl : Invoice.selected = ref := Except.ok.inj (Invoice.select_fixed.symm.trans hselect)
  exact ⟨hhides, fun h => hkey.mp h hhides⟩

/-- **Reflection and a selector do not always name the same member.** -/
theorem not_reflected_selected :
    ¬ ∀ (s : Schema) (t : TypeId) (ms : List MemberInfo), (s.reflect t []).1 = .ok ms →
      ∀ m ∈ ms, ∃ ref, s.select t (.name m.member.name) = .ok ref ∧
        ref.declaring = m.member.declaring ∧ ref.name = m.member.name ∧
        ref.kind = m.member.kind := by
  intro h
  obtain ⟨ms, hms, m, hm, hmember⟩ := Invoice.reflect_fixed
  obtain ⟨ref, hselect, hdeclaring, -, -⟩ := h _ _ ms hms m hm
  rw [hmember] at hselect hdeclaring
  obtain rfl : Invoice.selected = ref := Except.ok.inj (Invoice.select_fixed.symm.trans hselect)
  have hne : Invoice.selected.declaring ≠ Invoice.reflected.declaring := by decide
  exact hne hdeclaring

end MemberRules
