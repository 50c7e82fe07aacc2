/-
# Look-ups from two memories

Finding a message looks up strings and remembers them, so it could seem to depend on what was looked
up before.  It does not, as long as two memories agree on the strings that are looked up.  This is
carried from the look-up of a string through the search for a message, for any agreement of memories
that the look-up of a string and an entry in the log respect.

* `Lookup.Respects`: a look-up that gives the same from memories that agree, and leaves such.
* `Lookup.Respects.firstText`: the search for a message is one.
* `Lookups.answerFor`, `Lookups.Recalls`: what a memory gives for a key, and memories that give what
  another one gives.
* `Lookups.respects_find`: a look-up of a string keeps what a memory gives.
-/
import MemberRules.Message.Origin
import MemberRules.Proofs.Message.Cultures

namespace MemberRules

open MemberRules.Computation

variable {α β : Type}

/-! ## 1. Look-ups that respect an agreement -/

/-- A look-up that gives the same from two memories that agree, and leaves such memories. -/
def Lookup.Respects (R : Lookups → Lookups → Prop) (x : Lookup α) : Prop :=
  ∀ m m', R m m' → (x m).1 = (x m').1 ∧ R (x m).2 (x m').2

namespace Lookup.Respects

variable {R : Lookups → Lookups → Prop}

theorem given (r : Except Fault α) : Lookup.Respects R (Message.given r) := fun _ _ h => ⟨rfl, h⟩

theorem pure (a : α) : Lookup.Respects R (pure a) := fun _ _ h => ⟨rfl, h⟩

theorem throw (f : Fault) : Lookup.Respects R (throw f : Lookup α) := fun _ _ h => ⟨rfl, h⟩

theorem bind {x : Lookup α} {f : α → Lookup β} (hx : Lookup.Respects R x)
    (hf : ∀ a, Lookup.Respects R (f a)) : Lookup.Respects R (x >>= f) := by
  intro m m' h
  obtain ⟨hresult, hleft⟩ := hx m m' h
  rw [bind_apply, bind_apply]
  rcases hrun : x m with ⟨r | a, m₁⟩ <;> rcases hrun' : x m' with ⟨r' | a', m₁'⟩ <;>
    rw [hrun, hrun'] at hresult hleft <;> cases hresult
  · exact ⟨rfl, hleft⟩
  · exact hf a m₁ m₁' hleft

/-! ### Messages -/

section

variable {s : Message.Sources} {w : Message.Wanted}
  (hlog : ∀ m m' event, R m m' →
    R { m with log := m.log ++ [event] } { m' with log := m'.log ++ [event] })
  (hfind : ∀ resource key,
    Lookup.Respects R (Message.findString s resource key (Message.cultureFor s w.rule)))

include hlog hfind

theorem fromResource (resource : Option String) (key : String) :
    Lookup.Respects R (Message.fromResource s w resource key) := by
  refine bind (hfind resource key) fun answer => ?_
  split
  · exact pure _
  · split
    · exact throw _
    · exact pure _
    · exact bind (fun m m' h => ⟨rfl, hlog m m' _ h⟩) fun _ => pure _

theorem origin (computed : Option String) (o : Message.Origin) :
    Lookup.Respects R (o.text? s w computed) := by
  have hresource := fromResource hlog hfind
  cases o with
  | own =>
    simp only [Message.Origin.text?]
    split
    · exact bind (given _) fun _ => pure _
    · exact pure _
    · exact pure _
  | ruleResource =>
    simp only [Message.Origin.text?]
    split
    · exact hresource _ _
    · exact pure _
  | attributeResource =>
    simp only [Message.Origin.text?]
    split
    · exact hresource _ _
    · exact pure _
  | conventional =>
    simp only [Message.Origin.text?]
    split
    · split
      · exact hresource _ _
      · exact pure _
    · exact pure _
  | fallback => exact pure _
  | template =>
    simp only [Message.Origin.text?]
    split
    · exact bind (given _) fun _ => pure _
    · exact pure _
  | general => exact pure _

/-- **The search for a message** respects an agreement that the look-up of each string respects. -/
theorem firstText (computed : Option String) (os : List Message.Origin) :
    Lookup.Respects R (Message.firstText s w computed os) := by
  induction os with
  | nil => exact pure _
  | cons o os ih =>
    refine bind (origin hlog hfind computed o) fun text => ?_
    split
    · exact pure _
    · exact ih

end

end Lookup.Respects

/-! ## 2. Memories that know the same -/

namespace Lookups

variable {rs : Resources} {m m' : Lookups} {resource : Option String} {key : String}
  {culture : Option Culture}

/-- Two memories that know the same, whatever their logs say. -/
def SameKnown (m m' : Lookups) : Prop := m'.known = m.known

theorem SameKnown.log {event : Log.Event} (h : SameKnown m m') :
    SameKnown { m with log := m.log ++ [event] } { m' with log := m'.log ++ [event] } := h

theorem respects_find_sameKnown (rs : Resources) (resource : Option String) (key : String)
    (culture : Option Culture) : Lookup.Respects SameKnown (find rs resource key culture) := by
  intro m m' h
  have hknown : m'.known = m.known := h
  unfold find SameKnown
  dsimp only
  rw [hknown]
  cases m.known.lookup ⟨resource, key, Culture.nameOf culture⟩ with
  | some answer => exact ⟨rfl, hknown⟩
  | none => cases rs.find resource key culture <;> exact ⟨rfl, by simp [hknown]⟩

/-! ## 3. Memories that give the same answers -/

/-- What a memory gives for a key: what it remembers, or else what the resource gives. -/
def answerFor (m : Lookups) (rs : Resources) (resource : Option String) (key : String)
    (culture : Option Culture) : Except Fault (Except AppError String) :=
  match m.known.lookup ⟨resource, key, Culture.nameOf culture⟩ with
  | some answer => .ok answer
  | none => rs.find resource key culture

theorem find_fst (m : Lookups) (rs : Resources) (resource : Option String) (key : String)
    (culture : Option Culture) :
    (find rs resource key culture m).1 = m.answerFor rs resource key culture := by
  unfold find answerFor
  dsimp only
  cases m.known.lookup ⟨resource, key, Culture.nameOf culture⟩ with
  | some answer => rfl
  | none => cases rs.find resource key culture <;> rfl

/-- Looking up a string changes no answer, for the same key or for another one, if the name of a culture
says where strings are searched for. -/
theorem answerFor_find_of {resource' : Option String} {key' : String} {culture' : Option Culture}
    (h : Culture.nameOf culture' = Culture.nameOf culture →
      rs.find resource key culture' = rs.find resource key culture) :
    (find rs resource key culture m).2.answerFor rs resource' key' culture' =
      m.answerFor rs resource' key' culture' := by
  unfold find
  dsimp only
  cases hk : m.known.lookup ⟨resource, key, Culture.nameOf culture⟩ with
  | some answer => rfl
  | none =>
    cases hfind : rs.find resource key culture with
    | error f => rfl
    | ok answer =>
      unfold answerFor
      dsimp only
      rw [List.lookup_append]
      cases hk' : m.known.lookup ⟨resource', key', Culture.nameOf culture'⟩ with
      | some answer' => rfl
      | none =>
        rw [Option.none_or, List.lookup_cons]
        by_cases heq : (⟨resource', key', Culture.nameOf culture'⟩ : LookupKey) =
            ⟨resource, key, Culture.nameOf culture⟩
        · obtain ⟨rfl, rfl, hname⟩ := LookupKey.mk.inj heq
          rw [hname, beq_self_eq_true, h hname, hfind]
        · rw [beq_eq_false_iff_ne.mpr heq]
          rfl

/-- Looking up a string changes no answer under a culture that is a word. -/
theorem answerFor_find {resource' : Option String} {key' : String} {culture' : Option Culture}
    (h : Culture.IsWorded culture) (h' : Culture.IsWorded culture') :
    (find rs resource key culture m).2.answerFor rs resource' key' culture' =
      m.answerFor rs resource' key' culture' :=
  answerFor_find_of fun hname => Resources.find_eq_of_nameOf h' h hname rs resource key

/-- A memory that gives what another one gives, for the cultures that are used. -/
def Recalls (rs : Resources) (uses : Option Culture → Prop) (base m : Lookups) : Prop :=
  ∀ resource key culture, uses culture →
    m.answerFor rs resource key culture = base.answerFor rs resource key culture

/-- **Looking up a string** gives what a memory gives, and keeps it from being forgotten. -/
theorem respects_find {uses : Option Culture → Prop} {base : Lookups}
    (hworded : ∀ c, uses c → Culture.IsWorded c) (huses : uses culture)
    (resource : Option String) (key : String) :
    Lookup.Respects (fun m m' => Recalls rs uses base m ∧ Recalls rs uses base m')
      (find rs resource key culture) := by
  rintro m m' ⟨h, h'⟩
  refine ⟨?_, fun resource' key' culture' hc => ?_, fun resource' key' culture' hc => ?_⟩
  · rw [find_fst, find_fst, h _ _ _ huses, h' _ _ _ huses]
  · rw [answerFor_find (hworded culture huses) (hworded culture' hc), h _ _ _ hc]
  · rw [answerFor_find (hworded culture huses) (hworded culture' hc), h' _ _ _ hc]

end Lookups
end MemberRules
