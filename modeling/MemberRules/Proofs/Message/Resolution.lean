/-
# Which message is found, and when none is

The origins of a message are tried in order.  One that offers nothing is passed over, and so is a
resource string that does not fit its arguments.  The message of a rule that does not fit is filled in
with the name alone, or else taken as it is, and so is the template of an attribute.  There is always
a text in the end, if no origin before it fails.

But the origins do not expect the same faults.  All of them expect a template that does not fit, and
all but the last one expect an attribute that is missing; nothing else is expected anywhere.  So it
depends on the templates and arguments whether a text is found: the search fails if the first origin
that is not passed over has a template with a field that reads an item by something that is no
number, or asks for a width that nothing can have, or if an argument is a number that cannot be
written under the culture; and for the template of an attribute also if a field reads an attribute.

* `Offer`, `Origin.offer?`: what an origin offers.
* `Offer.Gives`, `Offer.Escapes`: the text that an offer gives, or the fault that it does not expect.
* `Settles`: how a list of origins is settled.
* `resolve_iff`: this is how a message is found, and why none is.
* `resolve_fails`: a template for which none is.
-/
import MemberRules.Message.Origin
import MemberRules.Proofs.Computation
import MemberRules.Proofs.Message.Faults

namespace MemberRules

open MemberRules.Computation

/-! ## 1. Plain resources -/

/-- A resource whose strings are held as texts: a catalog, or a class with nothing but texts. -/
def Resource.IsPlain : Resource → Prop
  | .catalog _ => True
  | .members c => ∀ e ∈ c.members, ∃ s, e.2 = .value (.text s)

/-- Resources whose strings are all held as texts. -/
def Resources.ArePlain (rs : Resources) : Prop := ∀ e ∈ rs, e.2.IsPlain

namespace Resources

variable {rs : Resources}

theorem ArePlain.of_lookup {name : String} {r : Resource} (h : rs.ArePlain)
    (hr : rs.lookup name = some r) : r.IsPlain := h _ (mem_of_lookup hr)

/-- A member of a class with nothing but texts is a text. -/
theorem ArePlain.member? {c : ResourceClass} {key : String} {m : ResourceMember} (h : rs.ArePlain)
    (hc : (Resource.members c).IsPlain) (hm : rs.member? c key = some m) :
    ∃ s, m = .value (.text s) := by
  unfold Resources.member? at hm
  cases hown : c.members.lookup key with
  | some m' =>
    rw [hown, Option.some_or] at hm
    cases hm
    exact hc _ (mem_of_lookup hown)
  | none =>
    rw [hown, Option.none_or] at hm
    obtain ⟨n, -, hn⟩ := List.exists_of_findSome?_eq_some hm
    obtain ⟨d, hd, hmember⟩ := Option.bind_eq_some_iff.mp hn
    unfold class? at hd
    split at hd <;> cases hd
    rename_i hlookup
    exact h.of_lookup hlookup _ (mem_of_lookup hmember)

/-- **A look-up in plain resources does not fail**: no member of a class can be called. -/
theorem ArePlain.find_eq_ok (h : rs.ArePlain) (resource : Option String) (key : String)
    (culture : Option Culture) : ∃ a, rs.find resource key culture = .ok a := by
  have hstring : ∀ r : Resource, r.IsPlain → ∃ a, rs.string? r key culture = .ok a := by
    intro r hr
    cases r with
    | catalog c => exact ⟨_, rfl⟩
    | members c =>
      have hcall : ((rs.member? c finderName).bind fun m => m.call? c.isObject key culture) =
          none := by
        cases hm : rs.member? c finderName with
        | none => rfl
        | some m =>
          obtain ⟨s, rfl⟩ := h.member? hr hm
          rfl
      exact ⟨(rs.ownMember c key).text?, by simp only [string?, hcall]⟩
  unfold find
  dsimp only
  split
  · rename_i r hr
    obtain ⟨name, -, hname⟩ := Option.bind_eq_some_iff.mp hr
    obtain ⟨found, hfound⟩ := hstring r (h.of_lookup hname)
    split
    · exact ⟨_, rfl⟩
    · rw [hfound]
      cases found <;> exact ⟨_, rfl⟩
  · exact ⟨_, rfl⟩

end Resources

namespace Lookups

variable {rs : Resources} {m : Lookups} {culture : Option Culture}

/-- The string of a key: the remembered one, or else that of the resource. -/
def answer? (m : Lookups) (rs : Resources) (resource : Option String) (key : String)
    (culture : Option Culture) : Option String :=
  match m.known.lookup ⟨resource, key, Culture.nameOf culture⟩ with
  | some a => a.toOption
  | none => ((rs.find resource key culture).toOption).bind Except.toOption

/-- Two memories that give the same answers under a culture. -/
def Agree (rs : Resources) (culture : Option Culture) (m m' : Lookups) : Prop :=
  ∀ resource key, m'.answer? rs resource key culture = m.answer? rs resource key culture

/-- **A look-up gives the answer**, and further look-ups under the culture give what they would have
given without it. -/
theorem find_apply (h : rs.ArePlain) (resource : Option String) (key : String)
    (culture : Option Culture) (m : Lookups) : ∃ a m', Lookups.find rs resource key culture m = (.ok a, m') ∧
      a.toOption = m.answer? rs resource key culture ∧ Agree rs culture m m' := by
  unfold Lookups.find
  dsimp only
  cases hk : m.known.lookup ⟨resource, key, Culture.nameOf culture⟩ with
  | some a => exact ⟨a, m, rfl, by rw [answer?, hk], fun _ _ => rfl⟩
  | none =>
    obtain ⟨a, ha⟩ := h.find_eq_ok resource key culture
    refine ⟨a, _, by rw [ha], by rw [answer?, hk, ha]; rfl, fun resource' key' => ?_⟩
    unfold answer?
    dsimp only
    rw [List.lookup_append]
    cases hk' : m.known.lookup ⟨resource', key', Culture.nameOf culture⟩ with
    | some a' => rfl
    | none =>
      rw [Option.none_or, List.lookup_cons]
      by_cases heq : (⟨resource', key', Culture.nameOf culture⟩ : LookupKey) =
          ⟨resource, key, Culture.nameOf culture⟩
      · cases heq
        rw [beq_self_eq_true, ha]
        rfl
      · rw [beq_eq_false_iff_ne.mpr heq]
        rfl

end Lookups

namespace Message

/-! ## 2. Offers -/

/-- Where a template stands. -/
inductive Place
  /-- The message of a rule. -/
  | rule
  /-- A string of a resource. -/
  | resource
  /-- The template of an attribute. -/
  | validator
  deriving DecidableEq

/-- What an origin offers. -/
inductive Offer
  /-- A text that is taken as it is. -/
  | text (s : String)
  /-- A template to be filled in. -/
  | template (place : Place) (t : String)

/-- The string of a key as it is found for a message. -/
def foundFor (s : Sources) (w : Wanted) (m : Lookups) (resource : Option String) (key : String) :
    Option String :=
  m.answer? s.resources resource key (cultureFor s w.rule)

/-- What an origin offers for a message that is a matter of texts alone. -/
def Origin.offer? (s : Sources) (w : Wanted) (m : Lookups) : Origin → Option Offer
  | own => match w.rule.bind Rule.message with
    | some (.template t) => some (.template .rule t)
    | _ => none
  | ruleResource => (w.rule.bind fun r => present r.resourceKey).bind fun key =>
    (foundFor s w m (resourceFor s w) key).map (.template .resource)
  | attributeResource => (w.validator.bind fun a => present a.resourceKey).bind fun key =>
    (w.validator.bind Attribute.resource).bind fun resource =>
      (foundFor s w m (some resource) key).map (.template .resource)
  | conventional => w.validator.bind fun a => (resourceFor s w).bind fun resource =>
    if usesConventionalKey s w.rule then
      (foundFor s w m (some resource) (conventionalKey s.options w.type w.member a)).map
        (.template .resource)
    else none
  | fallback => (w.rule.bind fun r => present r.fallback).map .text
  | template => w.validator.map fun a => .template .validator a.template
  | general => some (.text ("Invalid value for " ++ w.member))

/-- The faults that are expected where a template stands. -/
def Place.Expects : Place → Fault → Prop
  | rule, f | resource, f => isMisfit f = true
  | validator, f => f.IsUnfit

/-- A template that does not fit its arguments, as is expected where it stands. -/
def Misfits (place : Place) (t : String) (culture : Option Culture) (args : List Value) : Prop :=
  ∃ f, fill t culture args = .error f ∧ place.Expects f

/-- The text that an offer gives. -/
inductive Offer.Gives (culture : Option Culture) (w : Wanted) : Offer → String → Prop
  | asIs {s : String} : Gives culture w (.text s) s
  | filled {place : Place} {t s : String} (h : fill t culture w.allArgs = .ok s) :
    Gives culture w (.template place t) s
  /-- The message of a rule that fits the name alone. -/
  | named {t s : String} (h : Misfits .rule t culture w.allArgs)
    (h' : fill t culture [.text w.name] = .ok s) : Gives culture w (.template .rule t) s
  | kept {t : String} (h : Misfits .rule t culture w.allArgs)
    (h' : Misfits .rule t culture [.text w.name]) : Gives culture w (.template .rule t) t
  | unfilled {t : String} (h : Misfits .validator t culture w.allArgs) :
    Gives culture w (.template .validator t) t

/-- The fault of an offer that is not expected. -/
inductive Offer.Escapes (culture : Option Culture) (w : Wanted) : Offer → Fault → Prop
  | atFirst {place : Place} {t : String} {f : Fault} (h : fill t culture w.allArgs = .error f)
    (hf : ¬ place.Expects f) : Escapes culture w (.template place t) f
  | atName {t : String} {f : Fault} (h : Misfits .rule t culture w.allArgs)
    (h' : fill t culture [.text w.name] = .error f) (hf : ¬ Place.rule.Expects f) :
    Escapes culture w (.template .rule t) f

/-- An offer that is passed over. -/
def Offer.IsPassed (culture : Option Culture) (w : Wanted) : Offer → Prop
  | .template .resource t => Misfits .resource t culture w.allArgs
  | _ => False

/-- **How origins are settled**: by the first one with an offer that is not passed over. -/
inductive Settles (s : Sources) (w : Wanted) (m : Lookups) : List Origin → Except Fault String → Prop
  | missing {o : Origin} {os : List Origin} {r : Except Fault String} (h : o.offer? s w m = none)
    (rest : Settles s w m os r) : Settles s w m (o :: os) r
  | passed {o : Origin} {os : List Origin} {offer : Offer} {r : Except Fault String}
    (h : o.offer? s w m = some offer) (hpassed : offer.IsPassed (cultureFor s w.rule) w)
    (rest : Settles s w m os r) : Settles s w m (o :: os) r
  | gives {o : Origin} {os : List Origin} {offer : Offer} {text : String}
    (h : o.offer? s w m = some offer) (htext : offer.Gives (cultureFor s w.rule) w text) :
    Settles s w m (o :: os) (.ok text)
  | escapes {o : Origin} {os : List Origin} {offer : Offer} {f : Fault}
    (h : o.offer? s w m = some offer) (hf : offer.Escapes (cultureFor s w.rule) w f) :
    Settles s w m (o :: os) (.error f)

variable {s : Sources} {w : Wanted} {m m' : Lookups} {culture : Option Culture}

/-! ## 3. What becomes of an offer -/

/-- A template that stands anywhere is filled in, does not fit, or fails. -/
theorem fillIfFits_cases (t : String) (culture : Option Culture) (args : List Value) :
    (∃ text, fill t culture args = .ok text ∧ fillIfFits t culture args = .ok (some text)) ∨
    (∃ f, fill t culture args = .error f ∧ isMisfit f = true ∧ fillIfFits t culture args = .ok none) ∨
    ∃ f, fill t culture args = .error f ∧ ¬ isMisfit f = true ∧
      fillIfFits t culture args = .error f := by
  unfold fillIfFits
  cases hfill : fill t culture args with
  | ok text => exact .inl ⟨text, rfl, rfl⟩
  | error f =>
    by_cases hf : isMisfit f = true
    · exact .inr (.inl ⟨f, rfl, hf, if_pos hf⟩)
    · exact .inr (.inr ⟨f, rfl, hf, if_neg hf⟩)

/-- The message of a rule is settled. -/
theorem fillOrKeep_cases (t : String) (culture : Option Culture) (w : Wanted) :
    (∃ text, fillOrKeep t culture w = .ok text ∧
      (Offer.template .rule t).Gives culture w text) ∨
    ∃ f, fillOrKeep t culture w = .error f ∧ (Offer.template .rule t).Escapes culture w f := by
  unfold fillOrKeep
  rcases fillIfFits_cases t culture w.allArgs with
    ⟨text, hfill, heq⟩ | ⟨f, hfill, hf, heq⟩ | ⟨f, hfill, hf, heq⟩ <;> rw [heq]
  · exact .inl ⟨text, rfl, .filled hfill⟩
  · have hmisfits : Misfits .rule t culture w.allArgs := ⟨f, hfill, hf⟩
    rcases fillIfFits_cases t culture [.text w.name] with
      ⟨text, hname, heq⟩ | ⟨g, hname, hg, heq⟩ | ⟨g, hname, hg, heq⟩
    · exact .inl ⟨text, by simp only [heq]; rfl, .named hmisfits hname⟩
    · exact .inl ⟨t, by simp only [heq]; rfl, .kept hmisfits ⟨g, hname, hg⟩⟩
    · exact .inr ⟨g, by simp only [heq]; rfl, .atName hmisfits hname hg⟩
  · exact .inr ⟨f, rfl, .atFirst hfill hf⟩

/-- The template of an attribute is settled. -/
theorem defaultMessage_cases {a : Attribute} (h : w.validator = some a) :
    (∃ text, a.defaultMessage w.name culture = .ok text ∧
      (Offer.template .validator a.template).Gives culture w text) ∨
    ∃ f, a.defaultMessage w.name culture = .error f ∧
      (Offer.template .validator a.template).Escapes culture w f := by
  have hargs : w.allArgs = .text w.name :: a.check.args := by
    unfold Wanted.allArgs Wanted.args
    rw [h]
  unfold Attribute.defaultMessage
  rw [← hargs]
  cases hfill : fill a.template culture w.allArgs with
  | ok text => exact .inl ⟨text, rfl, .filled hfill⟩
  | error f =>
    by_cases hf : f.IsUnfit
    · refine .inl ⟨a.template, ?_, .unfilled ⟨f, hfill, hf⟩⟩
      rcases hf with rfl | rfl | rfl <;> rfl
    · refine .inr ⟨f, ?_, .atFirst hfill hf⟩
      cases f <;> first | rfl | exact absurd (by simp [Fault.IsUnfit]) hf

/-- What becomes of an origin. -/
inductive Outcome (s : Sources) (w : Wanted) (m : Lookups) (o : Origin) :
    Except Fault (Option String) → Prop
  | missing (h : o.offer? s w m = none) : Outcome s w m o (.ok none)
  | passed {offer : Offer} (h : o.offer? s w m = some offer)
    (hpassed : offer.IsPassed (cultureFor s w.rule) w) : Outcome s w m o (.ok none)
  | gives {offer : Offer} {text : String} (h : o.offer? s w m = some offer)
    (htext : offer.Gives (cultureFor s w.rule) w text) : Outcome s w m o (.ok (some text))
  | escapes {offer : Offer} {f : Fault} (h : o.offer? s w m = some offer)
    (hf : offer.Escapes (cultureFor s w.rule) w f) : Outcome s w m o (.error f)

/-- Two memories that give the same answers for a message. -/
abbrev Agree (s : Sources) (w : Wanted) (m m' : Lookups) : Prop :=
  Lookups.Agree s.resources (cultureFor s w.rule) m m'

theorem Agree.offer?_eq (h : Agree s w m m') (o : Origin) : o.offer? s w m' = o.offer? s w m := by
  have hfound : foundFor s w m' = foundFor s w m := funext fun resource => funext fun key =>
    h resource key
  unfold Origin.offer?
  rw [hfound]

/-- A string of a resource is settled. -/
theorem fromResource_apply (hplain : s.resources.ArePlain) (resource : Option String)
    (key : String) : ∃ m', Agree s w m m' ∧ fromResource s w resource key m =
      (match foundFor s w m resource key with
        | none => .ok none
        | some t => fillIfFits t (cultureFor s w.rule) w.allArgs, m') := by
  obtain ⟨a, m₁, hfind, ha, hagree⟩ :=
    Lookups.find_apply hplain resource key (cultureFor s w.rule) m
  unfold foundFor
  rw [← ha]
  unfold fromResource
  rw [bind_ok (show findString s resource key (cultureFor s w.rule) m = (.ok a, m₁) from hfind)]
  cases a with
  | error e => exact ⟨m₁, hagree, rfl⟩
  | ok t =>
    dsimp only [Except.toOption]
    rcases hr : fillIfFits t (cultureFor s w.rule) w.allArgs with f | _ | text
    · exact ⟨m₁, hagree, rfl⟩
    · exact ⟨{ m₁ with log := m₁.log ++ [Lookups.unfilledEvent key] }, hagree, rfl⟩
    · exact ⟨m₁, hagree, rfl⟩

/-- A resource string offered by an origin is settled. -/
theorem fromResource_outcome (hplain : s.resources.ArePlain) {o : Origin}
    {resource : Option String} {key : String} (h : o.offer? s w m =
      (foundFor s w m resource key).map (.template .resource)) :
    ∃ r m', fromResource s w resource key m = (r, m') ∧ Agree s w m m' ∧ Outcome s w m o r := by
  obtain ⟨m', hagree, heq⟩ := fromResource_apply (m := m) (w := w) hplain resource key
  refine ⟨_, m', heq, hagree, ?_⟩
  cases hfound : foundFor s w m resource key with
  | none =>
    rw [hfound] at h
    exact .missing h
  | some t =>
    rw [hfound] at h
    dsimp only
    rcases fillIfFits_cases t (cultureFor s w.rule) w.allArgs with
      ⟨text, hfill, hfits⟩ | ⟨f, hfill, hf, hfits⟩ | ⟨f, hfill, hf, hfits⟩ <;> rw [hfits]
    · exact .gives h (.filled hfill)
    · exact .passed h ⟨f, hfill, hf⟩
    · exact .escapes h (.atFirst hfill hf)

variable {computed : Option String}

/-- **What becomes of an origin is settled by what it offers**, and other look-ups are left as they
were. -/
theorem Origin.text?_outcome (hrule : ∀ e, w.rule.bind Rule.message ≠ some (.computed e))
    (hplain : s.resources.ArePlain) (o : Origin) (computed : Option String) (m : Lookups) :
    ∃ r m', o.text? s w computed m = (r, m') ∧ Agree s w m m' ∧ Outcome s w m o r := by
  have hsame : Agree s w m m := fun _ _ => rfl
  cases o with
  | own =>
    unfold Origin.text?
    cases hmessage : w.rule.bind Rule.message with
    | none => exact ⟨_, m, rfl, hsame, .missing (by rw [offer?, hmessage])⟩
    | some source =>
      cases source with
      | computed e => exact absurd hmessage (hrule e)
      | template t =>
        have hoffer : own.offer? s w m = some (.template .rule t) := by rw [offer?, hmessage]
        dsimp only
        rcases fillOrKeep_cases t (cultureFor s w.rule) w with ⟨text, heq, hgives⟩ | ⟨f, heq, hf⟩
        · rw [heq]
          exact ⟨_, m, rfl, hsame, .gives hoffer hgives⟩
        · rw [heq]
          exact ⟨_, m, rfl, hsame, .escapes hoffer hf⟩
  | ruleResource =>
    unfold Origin.text?
    cases hkey : w.rule.bind fun r => present r.resourceKey with
    | none => exact ⟨_, m, rfl, hsame, .missing (by rw [offer?, hkey]; rfl)⟩
    | some key => exact fromResource_outcome hplain (by rw [offer?, hkey]; rfl)
  | attributeResource =>
    unfold Origin.text?
    cases hkey : w.validator.bind fun a => present a.resourceKey with
    | none => exact ⟨_, m, rfl, hsame, .missing (by rw [offer?, hkey]; rfl)⟩
    | some key =>
      cases hresource : w.validator.bind Attribute.resource with
      | none => exact ⟨_, m, rfl, hsame, .missing (by rw [offer?, hkey, hresource]; rfl)⟩
      | some resource =>
        exact fromResource_outcome hplain (by rw [offer?, hkey, hresource]; rfl)
  | conventional =>
    unfold Origin.text?
    cases hvalidator : w.validator with
    | none => exact ⟨_, m, rfl, hsame, .missing (by rw [offer?, hvalidator]; rfl)⟩
    | some a =>
      cases hresource : resourceFor s w with
      | none => exact ⟨_, m, rfl, hsame, .missing (by rw [offer?, hvalidator, hresource]; rfl)⟩
      | some resource =>
        dsimp only
        split
        · rename_i huses
          exact fromResource_outcome hplain
            (by rw [offer?, hvalidator, hresource, Option.bind_some, Option.bind_some, if_pos huses])
        · rename_i huses
          exact ⟨_, m, rfl, hsame, .missing
            (by rw [offer?, hvalidator, hresource, Option.bind_some, Option.bind_some, if_neg huses])⟩
  | fallback =>
    refine ⟨_, m, rfl, hsame, ?_⟩
    cases htext : w.rule.bind fun r => present r.fallback with
    | none => exact .missing (by rw [offer?, htext]; rfl)
    | some text => exact .gives (by rw [offer?, htext]; rfl) .asIs
  | template =>
    unfold Origin.text?
    cases hvalidator : w.validator with
    | none => exact ⟨_, m, rfl, hsame, .missing (by rw [offer?, hvalidator]; rfl)⟩
    | some a =>
      have hoffer : template.offer? s w m = some (.template .validator a.template) := by
        rw [offer?, hvalidator]
        rfl
      dsimp only
      rcases defaultMessage_cases hvalidator with ⟨text, heq, hgives⟩ | ⟨f, heq, hf⟩
      · rw [heq]
        exact ⟨_, m, rfl, hsame, .gives hoffer hgives⟩
      · rw [heq]
        exact ⟨_, m, rfl, hsame, .escapes hoffer hf⟩
  | general => exact ⟨_, m, rfl, hsame, .gives rfl .asIs⟩

/-! ## 4. How a message is found -/

theorem Settles.of_agree {os : List Origin} {r : Except Fault String} (hagree : Agree s w m m')
    (h : Settles s w m' os r) : Settles s w m os r := by
  induction h with
  | missing h _ ih => exact .missing (hagree.offer?_eq _ ▸ h) ih
  | passed h hpassed _ ih => exact .passed (hagree.offer?_eq _ ▸ h) hpassed ih
  | gives h htext => exact .gives (hagree.offer?_eq _ ▸ h) htext
  | escapes h hf => exact .escapes (hagree.offer?_eq _ ▸ h) hf

/-- The search through origins settles them, if the last resort is among them. -/
theorem settles_firstText (hrule : ∀ e, w.rule.bind Rule.message ≠ some (.computed e))
    (hplain : s.resources.ArePlain) {os : List Origin} (hos : .general ∈ os) (m : Lookups) :
    Settles s w m os (firstText s w computed os m).1 := by
  induction os generalizing m with
  | nil => cases hos
  | cons o os ih =>
    obtain ⟨r, m', htext, hagree, houtcome⟩ :=
      Origin.text?_outcome hrule hplain o computed m
    -- an origin without a text is not the last resort
    have hrest : r = .ok none → .general ∈ os := by
      rintro rfl
      rcases List.mem_cons.mp hos with rfl | hos
      · cases htext
      · exact hos
    rw [firstText, bind_apply, htext]
    cases houtcome with
    | missing h => exact .missing h ((ih (hrest rfl) m').of_agree hagree)
    | passed h hpassed => exact .passed h hpassed ((ih (hrest rfl) m').of_agree hagree)
    | gives h hgives => exact .gives h hgives
    | escapes h hf => exact .escapes h hf

/-- What becomes of an offer, in terms of filling it in. -/
theorem Misfits.not_ok {place : Place} {t text : String} {args : List Value}
    (h : Misfits place t culture args) : fill t culture args ≠ .ok text := by
  obtain ⟨f, hfill, -⟩ := h
  rw [hfill]
  exact fun heq => by cases heq

theorem Misfits.expects {place : Place} {t : String} {args : List Value} {f : Fault}
    (h : Misfits place t culture args) (hf : fill t culture args = .error f) : place.Expects f := by
  obtain ⟨g, hfill, hg⟩ := h
  rw [hfill] at hf
  cases hf
  exact hg

theorem Offer.Gives.unique {offer : Offer} {text text' : String} (h : offer.Gives culture w text)
    (h' : offer.Gives culture w text') : text = text' := by
  cases h with
  | asIs => cases h'; rfl
  | filled h =>
    cases h' with
    | filled h' => exact Except.ok.inj (h.symm.trans h')
    | named hmisfits => exact absurd h hmisfits.not_ok
    | kept hmisfits => exact absurd h hmisfits.not_ok
    | unfilled hmisfits => exact absurd h hmisfits.not_ok
  | named hmisfits h =>
    cases h' with
    | filled h' => exact absurd h' hmisfits.not_ok
    | named _ h' => exact Except.ok.inj (h.symm.trans h')
    | kept _ hname => exact absurd h hname.not_ok
  | kept hmisfits hname =>
    cases h' with
    | filled h' => exact absurd h' hmisfits.not_ok
    | named _ h' => exact absurd h' hname.not_ok
    | kept => rfl
  | unfilled hmisfits =>
    cases h' with
    | filled h' => exact absurd h' hmisfits.not_ok
    | unfilled => rfl

theorem Offer.Escapes.not_gives {offer : Offer} {f : Fault} {text : String}
    (h : offer.Escapes culture w f) : ¬ offer.Gives culture w text := by
  intro hgives
  cases h with
  | atFirst h hf =>
    cases hgives with
    | filled h' => cases h.symm.trans h'
    | named hmisfits => exact hf (hmisfits.expects h)
    | kept hmisfits => exact hf (hmisfits.expects h)
    | unfilled hmisfits => exact hf (hmisfits.expects h)
  | atName hmisfits h hf =>
    cases hgives with
    | filled h' => exact hmisfits.not_ok h'
    | named _ h' => cases h.symm.trans h'
    | kept _ hname => exact hf (hname.expects h)

theorem Offer.Escapes.unique {offer : Offer} {f f' : Fault} (h : offer.Escapes culture w f)
    (h' : offer.Escapes culture w f') : f = f' := by
  cases h with
  | atFirst h hf =>
    cases h' with
    | atFirst h' => exact Except.error.inj (h.symm.trans h')
    | atName hmisfits => exact absurd (hmisfits.expects h) hf
  | atName hmisfits h hf =>
    cases h' with
    | atFirst h' hf' => exact absurd (hmisfits.expects h') hf'
    | atName _ h' => exact Except.error.inj (h.symm.trans h')

theorem Offer.IsPassed.not_gives {offer : Offer} {text : String} (h : offer.IsPassed culture w) :
    ¬ offer.Gives culture w text := by
  intro hgives
  cases hgives with
  | asIs => exact h
  | @filled place _ _ hfill =>
    cases place with
    | resource => exact Misfits.not_ok h hfill
    | _ => exact h
  | named | kept | unfilled => exact h

theorem Offer.IsPassed.not_escapes {offer : Offer} {f : Fault} (h : offer.IsPassed culture w) :
    ¬ offer.Escapes culture w f := by
  intro hescapes
  cases hescapes with
  | @atFirst place _ _ hfill hf =>
    cases place with
    | resource => exact hf (Misfits.expects h hfill)
    | _ => exact h
  | atName => exact h

/-- **Origins are settled in one way.** -/
theorem Settles.unique {os : List Origin} {r r' : Except Fault String} (h : Settles s w m os r)
    (h' : Settles s w m os r') : r = r' := by
  induction h with
  | missing h _ ih =>
    cases h' with
    | missing _ rest => exact ih rest
    | passed h' | gives h' | escapes h' => cases h.symm.trans h'
  | passed h hpassed _ ih =>
    cases h' with
    | missing h' => cases h.symm.trans h'
    | passed _ _ rest => exact ih rest
    | gives h' hgives =>
      cases h.symm.trans h'
      exact absurd hgives hpassed.not_gives
    | escapes h' hescapes =>
      cases h.symm.trans h'
      exact absurd hescapes hpassed.not_escapes
  | gives h hgives =>
    cases h' with
    | missing h' => cases h.symm.trans h'
    | passed h' hpassed =>
      cases h.symm.trans h'
      exact absurd hgives hpassed.not_gives
    | gives h' hgives' =>
      cases h.symm.trans h'
      rw [hgives.unique hgives']
    | escapes h' hescapes =>
      cases h.symm.trans h'
      exact absurd hgives hescapes.not_gives
  | escapes h hescapes =>
    cases h' with
    | missing h' => cases h.symm.trans h'
    | passed h' hpassed =>
      cases h.symm.trans h'
      exact absurd hescapes hpassed.not_escapes
    | gives h' hgives =>
      cases h.symm.trans h'
      exact absurd hgives hescapes.not_gives
    | escapes h' hescapes' =>
      cases h.symm.trans h'
      rw [hescapes.unique hescapes']

theorem expects_of_isUnfit {f : Fault} (h : f.IsUnfit) (place : Place) : place.Expects f := by
  cases place with
  | rule | resource => rcases h with rfl | rfl | rfl <;> rfl
  | validator => exact h

/-- A template that fails with the name alone fails for a reason of its own. -/
theorem Reason.of_name {t name : String} {f : Fault} (h : Reason t culture [.text name] f)
    (args : List Value) : Reason t culture args f := by
  rcases h with h | ⟨-, v, hv, h⟩
  · exact .inl h
  · obtain rfl := List.mem_singleton.mp hv
    cases h with
    | tooLarge number => cases number
    | tooLong number => cases number

/-- **Why an offer fails**: for a reason in its template or in an argument, and because of an
attribute only at the template of an attribute. -/
theorem Offer.Escapes.reason {offer : Offer} {f : Fault} (h : offer.Escapes culture w f) :
    ∃ place t, offer = .template place t ∧ Reason t culture w.allArgs f ∧
      (f = .noAttribute → place = .validator) := by
  cases h with
  | @atFirst place t f h hf =>
    refine ⟨place, t, rfl, ?_, ?_⟩
    · exact (fill_eq_error h).resolve_left fun hunfit => hf (expects_of_isUnfit hunfit place)
    · rintro rfl
      cases place with
      | rule | resource => exact absurd rfl hf
      | validator => rfl
  | @atName t f hmisfits h hf =>
    refine ⟨.rule, t, rfl, ?_, ?_⟩
    · exact ((fill_eq_error h).resolve_left fun hunfit =>
        hf (expects_of_isUnfit hunfit .rule)).of_name _
    · rintro rfl
      exact absurd rfl hf

theorem Settles.reason {os : List Origin} {r : Except Fault String} {f : Fault}
    (h : Settles s w m os r) (hr : r = .error f) : ∃ o ∈ os, ∃ place t,
      o.offer? s w m = some (.template place t) ∧ Reason t (cultureFor s w.rule) w.allArgs f ∧
        (f = .noAttribute → place = .validator) := by
  induction h with
  | missing _ _ ih | passed _ _ _ ih =>
    obtain ⟨o, ho, hreason⟩ := ih hr
    exact ⟨o, List.mem_cons_of_mem _ ho, hreason⟩
  | gives => cases hr
  | @escapes o os offer f h hescapes =>
    cases hr
    obtain ⟨place, t, rfl, hreason⟩ := hescapes.reason
    exact ⟨o, List.mem_cons_self, place, t, h, hreason⟩

/-- **How a message is found, and why none is.**  For a rule whose message is a text or absent, and
resources that hold their strings as texts, the origins are settled in their order, whatever has been
looked up before.  If no text is found, an origin offers a template with a reason to fail, which is a
missing attribute only at the template of an attribute. -/
theorem resolve_iff (hrule : ∀ e, w.rule.bind Rule.message ≠ some (.computed e))
    (hplain : s.resources.ArePlain) :
    (∀ r, (resolve s w computed m).1 = r ↔ Settles s w m Origin.all r) ∧
    ∀ f, (resolve s w computed m).1 = .error f → ∃ o ∈ Origin.all, ∃ place t,
      o.offer? s w m = some (.template place t) ∧ Reason t (cultureFor s w.rule) w.allArgs f ∧
        (f = .noAttribute → place = .validator) := by
  have hsettles : Settles s w m Origin.all (resolve s w computed m).1 :=
    settles_firstText hrule hplain (by decide) m
  refine ⟨fun r => ⟨fun h => h ▸ hsettles, fun h => hsettles.unique h⟩, fun f hf => ?_⟩
  exact hsettles.reason hf

/-! ## 5. An address that is needed

The template asks for an attribute of the name, which texts do not have.  As a string of a resource it
is passed over; as the template of an attribute it is not expected. -/

namespace Address

def strings : List (String × String) := [("needed", "\x7b0.size\x7d is needed")]

def sources : Sources :=
  { schema := {}
    resources := [("Texts", .catalog { name := "Texts", tables := [("", strings)] })]
    options := {}
    ambient := none }

/-- The message for a missing address, from an attribute with a template of its own. -/
def wanted (template : String) (key : Option String) : Wanted :=
  { type := .declared "User"
    member := "email"
    validator := some {
      check := .required false
      message := some template
      resourceKey := key
      resource := some "Texts" } }

theorem arePlain : sources.resources.ArePlain := by
  intro e he
  obtain rfl := List.mem_singleton.mp he
  exact trivial

end Address

theorem resolve_iff_address : Settles Address.sources
    (Address.wanted "\x7b0\x7d is missing" (some "needed")) {} Origin.all
    (.ok "email is missing") := by
  have hrun : (resolve Address.sources (Address.wanted "\x7b0\x7d is missing" (some "needed"))
      none {}).1 = .ok "email is missing" :=
    congrArg Prod.fst (eq_ok_of_toOption (by decide +kernel))
  exact ((resolve_iff (fun e h => by cases h) Address.arePlain).1 _).mp hrun

/-- **A message is not always found**, although the message of the rule is absent and all strings are
held as texts. -/
theorem resolve_fails :
    ¬ ∀ (s : Sources) (w : Wanted) (m : Lookups),
      (∀ e, w.rule.bind Rule.message ≠ some (.computed e)) → s.resources.ArePlain →
      ∃ text, (resolve s w none m).1 = .ok text := by
  intro h
  obtain ⟨text, htext⟩ := h Address.sources (Address.wanted "\x7b0.size\x7d is needed" none) {}
    (fun e h => by cases h) Address.arePlain
  have hfails : (resolve Address.sources (Address.wanted "\x7b0.size\x7d is needed" none) none
      {}).1.isOk = false := by decide +kernel
  rw [htext] at hfails
  cases hfails

end Message
end MemberRules
