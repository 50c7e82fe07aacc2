/-
# Origins that stand before others

The origins of a message are tried in a fixed order, and the first one that gives a text decides.
What comes after it is not even looked at: a call that differs in nothing but what later origins
read finds the same text, and leaves the same memory.  This holds although origins share what they
read (a rule names one resource for two of them, an attribute has a part in three), although they
fail in different ways, and although each look-up leaves an entry in the memory that later ones
read.

Two facts carry this.  A look-up gives what the memory or else the resource gives, and changes no
other answer under the culture of the message; so what an origin finds can be said of the memory
before the call.  And of two calls that agree on what an origin reads, the origin makes the same
step.

* `Query`: everything that a message is resolved from, but for the memory.
* `Query.Yields`, `Query.Silent`: the text that an origin gives, and why it gives none.
* `Query.SameInputs`: two queries that agree on what an origin reads.
* `Query.firstText_decided`: the search for a message is decided by the first origin with a text.
* `message_decided`: so is every message that is found, and nothing behind that origin matters.
-/
import MemberRules.Proofs.Message.Lookups
import MemberRules.Proofs.Message.Resolution

namespace MemberRules

open MemberRules.Computation

namespace Message

/-- What a message is resolved from: where strings are looked up, what is wanted, and the text that
a computed message of the rule has for the object. -/
structure Query where
  sources : Sources
  wanted : Wanted
  computed : Option String
  /-- A computed message has a text. -/
  isComputed : ∀ e, wanted.rule.bind Rule.message = some (.computed e) → computed.isSome = true

/-- Whether an origin is a string of a resource. -/
def Origin.isString : Origin → Bool
  | ruleResource | attributeResource | conventional => true
  | _ => false

namespace Query

/-! ## 1. What origins read -/

/-- The culture that the message is for. -/
def culture (q : Query) : Option Culture := cultureFor q.sources q.wanted.rule

/-- The message of the rule. -/
def own? (q : Query) : Option MessageSource := q.wanted.rule.bind Rule.message

/-- The fallback of the rule. -/
def fallback? (q : Query) : Option String := q.wanted.rule.bind fun r => present r.fallback

/-- The resource and the key that an origin looks up. -/
def asked? (q : Query) : Origin → Option (Option String × String)
  | .ruleResource =>
    (q.wanted.rule.bind fun r => present r.resourceKey).map fun key =>
      (resourceFor q.sources q.wanted, key)
  | .attributeResource =>
    (q.wanted.validator.bind fun a => present a.resourceKey).bind fun key =>
      (q.wanted.validator.bind Attribute.resource).map fun resource => (some resource, key)
  | .conventional =>
    q.wanted.validator.bind fun a => (resourceFor q.sources q.wanted).bind fun resource =>
      if usesConventionalKey q.sources q.wanted.rule then
        some (some resource, conventionalKey q.sources.options q.wanted.type q.wanted.member a)
      else none
  | _ => none

/-- What is found under a key: the answer that is remembered, or else that of the resource. -/
def found (q : Query) (m : Lookups) (a : Option String × String) :
    Except Fault (Except AppError String) :=
  m.answerFor q.sources.resources a.1 a.2 q.culture

/-- **The text that an origin gives.** -/
inductive Yields (q : Query) (m : Lookups) : Origin → String → Prop
  | own {t text : String} (h : q.own? = some (.template t))
    (htext : (Offer.template .rule t).Gives q.culture q.wanted text) : Yields q m .own text
  | computed {e : Expr} {text : String} (h : q.own? = some (.computed e))
    (htext : q.computed = some text) : Yields q m .own text
  | string {o : Origin} {a : Option String × String} {t text : String} (h : q.asked? o = some a)
    (hfound : q.found m a = .ok (.ok t)) (htext : fill t q.culture q.wanted.allArgs = .ok text) :
    Yields q m o text
  | fallback {text : String} (h : q.fallback? = some text) : Yields q m .fallback text
  | template {a : Attribute} {text : String} (h : q.wanted.validator = some a)
    (htext : (Offer.template .validator a.template).Gives q.culture q.wanted text) :
    Yields q m .template text
  | general : Yields q m .general ("Invalid value for " ++ q.wanted.member)

/-- **Why an origin gives no text.** -/
inductive Silent (q : Query) (m : Lookups) : Origin → Prop
  | own (h : q.own? = none) : Silent q m .own
  | unasked {o : Origin} (ho : o.isString = true) (h : q.asked? o = none) : Silent q m o
  | missing {o : Origin} {a : Option String × String} {e : AppError} (h : q.asked? o = some a)
    (hfound : q.found m a = .ok (.error e)) : Silent q m o
  | unfit {o : Origin} {a : Option String × String} {t : String} (h : q.asked? o = some a)
    (hfound : q.found m a = .ok (.ok t)) (hfill : Misfits .resource t q.culture q.wanted.allArgs) :
    Silent q m o
  | fallback (h : q.fallback? = none) : Silent q m .fallback
  | template (h : q.wanted.validator = none) : Silent q m .template

/-- Two queries whose messages are filled in under one culture and with the same arguments. -/
structure SameFilling (q q' : Query) : Prop where
  culture : q'.culture = q.culture
  args : q'.wanted.allArgs = q.wanted.allArgs

/-- Two queries that agree on what an origin reads: the message, the fallback or the template, or
the key that is asked for and what is found under it; and where a template is filled in, the culture
and the arguments.  Everything else may differ. -/
def SameInputs (q q' : Query) (m : Lookups) : Origin → Prop
  | .own =>
    q'.own? = q.own? ∧ ((∃ t, q.own? = some (.template t)) → SameFilling q q') ∧
      ((∃ e, q.own? = some (.computed e)) → q'.computed = q.computed)
  | .fallback => q'.fallback? = q.fallback?
  | .template =>
    q'.wanted.validator.map Attribute.template = q.wanted.validator.map Attribute.template ∧
      (q.wanted.validator.isSome → SameFilling q q')
  | .general => q'.wanted.member = q.wanted.member
  | o => q'.asked? o = q.asked? o ∧
      ∀ a, q.asked? o = some a → SameFilling q q' ∧ q'.found m a = q.found m a

/-- What becomes of an origin. -/
def text? (q : Query) (o : Origin) : Lookup (Option String) := o.text? q.sources q.wanted q.computed

/-- The text of the first of the origins that gives one. -/
def firstText (q : Query) (os : List Origin) : Lookup String :=
  Message.firstText q.sources q.wanted q.computed os

variable {q q' : Query} {m m' : Lookups} {o : Origin} {os : List Origin} {text : String}

/-! ## 2. Origins in terms of what they read -/

theorem text?_own : q.text? .own = match q.own? with
    | some (.template t) => do return some (← given (fillOrKeep t q.culture q.wanted))
    | some (.computed _) => pure q.computed
    | none => pure none := rfl

theorem text?_fallback : q.text? .fallback = pure q.fallback? := rfl

theorem text?_template : q.text? .template = match q.wanted.validator with
    | some a => do return some (← given (a.defaultMessage q.wanted.name q.culture))
    | none => pure none := rfl

theorem text?_general :
    q.text? .general = pure (some ("Invalid value for " ++ q.wanted.member)) := rfl

/-- The string of a key, looked up. -/
def lookUp (q : Query) (a : Option String × String) : Lookup (Except AppError String) :=
  findString q.sources a.1 a.2 q.culture

/-- The filled-in string of a key. -/
def string (q : Query) (a : Option String × String) : Lookup (Option String) :=
  fromResource q.sources q.wanted a.1 a.2

theorem string_eq (a : Option String × String) : q.string a = do
    match ← q.lookUp a with
    | .error _ => return none
    | .ok t =>
      match fillIfFits t q.culture q.wanted.allArgs with
      | .error e => throw e
      | .ok (some text) => return some text
      | .ok none =>
        modify fun m => { m with log := m.log ++ [Lookups.unfilledEvent a.2] }
        return none := rfl

/-- The strings of resources: nothing is looked up, or the string of the key. -/
theorem text?_of_isString (ho : o.isString = true) :
    q.text? o = match q.asked? o with
      | none => pure none
      | some a => q.string a := by
  unfold text? Origin.text? asked?
  cases o with
  | ruleResource => cases q.wanted.rule.bind fun r => present r.resourceKey <;> rfl
  | attributeResource =>
    cases q.wanted.validator.bind fun a => present a.resourceKey <;>
      cases q.wanted.validator.bind Attribute.resource <;> rfl
  | conventional =>
    cases q.wanted.validator with
    | none => rfl
    | some a =>
      cases resourceFor q.sources q.wanted with
      | none => rfl
      | some resource => cases husage : usesConventionalKey q.sources q.wanted.rule <;> rfl
  | own | fallback | template | general => cases ho

/-- Looking up a string gives what is found, and changes no answer under its culture. -/
theorem lookUp_apply (a : Option String × String) :
    ∃ m', q.lookUp a m = (q.found m a, m') ∧ ∀ b, q.found m' b = q.found m b :=
  ⟨_, Prod.ext (Lookups.find_fst ..) rfl, fun _ => Lookups.answerFor_find_of fun _ => rfl⟩

/-- Two queries under one culture that find the same under a key leave the same memory. -/
theorem lookUp_eq (hculture : q'.culture = q.culture) {a : Option String × String}
    (hfound : q'.found m a = q.found m a) : q'.lookUp a m = q.lookUp a m := by
  unfold found Lookups.answerFor at hfound
  unfold lookUp findString Lookups.find
  rw [hculture] at hfound ⊢
  dsimp only at hfound ⊢
  cases hknown : m.known.lookup ⟨a.1, a.2, Culture.nameOf q.culture⟩ with
  | some answer => rfl
  | none =>
    rw [hknown] at hfound
    dsimp only at hfound ⊢
    rw [hfound]

/-! ## 3. One origin -/

/-- What an origin that ended without a fault gave. -/
def Ends (q : Query) (m : Lookups) (o : Origin) : Option String → Prop
  | some text => q.Yields m o text
  | none => q.Silent m o

/-- A string of a resource that ended without a fault. -/
theorem string_ends {a : Option String × String} {r : Option String}
    (ha : q.asked? o = some a) (h : q.string a m = (.ok r, m')) :
    q.Ends m o r ∧ ∀ b, q.found m' b = q.found m b := by
  obtain ⟨m₁, hlookUp, hkept⟩ := q.lookUp_apply (m := m) a
  rw [string_eq, bind_apply, hlookUp] at h
  rcases hfound : q.found m a with f | e | t <;> rw [hfound] at h
  · cases h
  · cases h
    exact ⟨.missing ha hfound, hkept⟩
  · dsimp only at h
    rcases fillIfFits_cases t q.culture q.wanted.allArgs with
      ⟨text, hfill, heq⟩ | ⟨f, hfill, hf, heq⟩ | ⟨f, -, -, heq⟩ <;> rw [heq] at h <;> cases h
    · exact ⟨.string ha hfound hfill, hkept⟩
    · exact ⟨.unfit ha hfound ⟨f, hfill, hf⟩, hkept⟩

/-- The message of a rule that ended without a fault. -/
theorem own_ends {r : Option String} (h : q.text? .own m = (.ok r, m')) :
    q.Ends m .own r ∧ m' = m := by
  rw [text?_own] at h
  rcases hown : q.own? with _ | t | e <;> rw [hown] at h <;> dsimp only at h
  · cases h
    exact ⟨.own hown, rfl⟩
  · rcases fillOrKeep_cases t q.culture q.wanted with ⟨text, heq, hgives⟩ | ⟨f, heq, -⟩ <;>
      rw [heq] at h <;> cases h
    exact ⟨.own hown hgives, rfl⟩
  · obtain ⟨text, htext⟩ := Option.isSome_iff_exists.mp (q.isComputed e hown)
    rw [htext] at h
    cases h
    exact ⟨.computed hown htext, rfl⟩

/-- The template of an attribute that ended without a fault. -/
theorem template_ends {r : Option String} (h : q.text? .template m = (.ok r, m')) :
    q.Ends m .template r ∧ m' = m := by
  rw [text?_template] at h
  cases hvalidator : q.wanted.validator with
  | none =>
    rw [hvalidator] at h
    cases h
    exact ⟨.template hvalidator, rfl⟩
  | some a =>
    rw [hvalidator] at h
    dsimp only at h
    have hcases := @defaultMessage_cases q.wanted q.culture a hvalidator
    rcases hcases with ⟨text, heq, hgives⟩ | ⟨f, heq, -⟩ <;> rw [heq] at h <;> cases h
    exact ⟨.template hvalidator hgives, rfl⟩

/-- **An origin that ended without a fault** gave its text or none, and changed no answer. -/
theorem text?_ends {r : Option String} (h : q.text? o m = (.ok r, m')) :
    q.Ends m o r ∧ ∀ b, q.found m' b = q.found m b := by
  have hplain {o : Origin} (h : q.Ends m o r ∧ m' = m) :
      q.Ends m o r ∧ ∀ b, q.found m' b = q.found m b :=
    ⟨h.1, fun b => by rw [h.2]⟩
  cases o with
  | own => exact hplain (own_ends h)
  | ruleResource | attributeResource | conventional =>
    rw [text?_of_isString rfl] at h
    split at h
    · rename_i hasked
      cases h
      exact ⟨.unasked rfl hasked, fun _ => rfl⟩
    · rename_i a hasked
      exact string_ends hasked h
  | fallback =>
    rw [text?_fallback] at h
    refine hplain ?_
    cases hfallback : q.fallback? <;> rw [hfallback] at h <;> cases h
    · exact ⟨.fallback hfallback, rfl⟩
    · exact ⟨.fallback hfallback, rfl⟩
  | template => exact hplain (template_ends h)
  | general =>
    cases h
    exact ⟨.general, fun _ => rfl⟩

/-! ## 4. Two queries -/

namespace SameFilling

theorem name_eq (h : SameFilling q q') : q'.wanted.name = q.wanted.name :=
  Value.text.inj (List.cons.inj h.args).1

theorem fillOrKeep_eq (h : SameFilling q q') (t : String) :
    fillOrKeep t q'.culture q'.wanted = fillOrKeep t q.culture q.wanted := by
  unfold fillOrKeep
  rw [h.culture, h.args, h.name_eq]

theorem string_eq (h : SameFilling q q') {a : Option String × String}
    (hfound : q'.found m a = q.found m a) : q'.string a m = q.string a m := by
  rw [Query.string_eq, Query.string_eq, h.culture, h.args, bind_apply, bind_apply,
    lookUp_eq h.culture hfound]

theorem defaultMessage_eq (h : SameFilling q q') {a a' : Attribute}
    (ha : q.wanted.validator = some a) (ha' : q'.wanted.validator = some a')
    (htemplate : a'.template = a.template) :
    a'.defaultMessage q'.wanted.name q'.culture = a.defaultMessage q.wanted.name q.culture := by
  have hargs := h.args
  unfold Wanted.allArgs Wanted.args at hargs
  rw [ha, ha'] at hargs
  dsimp only at hargs
  unfold Attribute.defaultMessage
  rw [htemplate, h.culture, hargs]

end SameFilling

/-- **Of two queries that agree on what an origin reads, the origin makes the same step.** -/
theorem text?_eq (h : q.SameInputs q' m o) : q'.text? o m = q.text? o m := by
  cases o with
  | own =>
    obtain ⟨hown, hfilling, hcomputed⟩ := h
    rw [text?_own, text?_own, hown]
    rcases hsource : q.own? with _ | t | e
    · rfl
    · dsimp only
      rw [(hfilling ⟨t, hsource⟩).fillOrKeep_eq t]
    · dsimp only
      rw [hcomputed ⟨e, hsource⟩]
  | ruleResource | attributeResource | conventional =>
    rw [text?_of_isString rfl, text?_of_isString rfl, h.1]
    split
    · rfl
    · rename_i a hasked
      exact (h.2 a hasked).1.string_eq (h.2 a hasked).2
  | fallback => rw [text?_fallback, text?_fallback, show q'.fallback? = q.fallback? from h]
  | template =>
    obtain ⟨htemplate, hfilling⟩ := h
    rw [text?_template, text?_template]
    cases ha : q.wanted.validator with
    | none =>
      rw [ha] at htemplate
      rw [Option.map_eq_none_iff.mp htemplate]
    | some a =>
      rw [ha] at htemplate
      obtain ⟨a', ha', htemplate⟩ := Option.map_eq_some_iff.mp htemplate
      rw [ha']
      dsimp only
      rw [(hfilling (by rw [ha]; rfl)).defaultMessage_eq ha ha' htemplate]
  | general =>
    rw [text?_general, text?_general, show q'.wanted.member = q.wanted.member from h]

/-! ## 5. The origin that decides -/

variable {m₁ : Lookups}

/-- What an origin gives is a matter of what is found. -/
theorem Yields.of_found (hfound : ∀ b, q.found m₁ b = q.found m b) (h : q.Yields m₁ o text) :
    q.Yields m o text := by
  cases h with
  | own h htext => exact .own h htext
  | computed h htext => exact .computed h htext
  | string h ht htext => exact .string h (hfound _ ▸ ht) htext
  | fallback h => exact .fallback h
  | template h htext => exact .template h htext
  | general => exact .general

theorem Silent.of_found (hfound : ∀ b, q.found m₁ b = q.found m b) (h : q.Silent m₁ o) :
    q.Silent m o := by
  cases h with
  | own h => exact .own h
  | unasked ho h => exact .unasked ho h
  | missing h hmiss => exact .missing h (hfound _ ▸ hmiss)
  | unfit h ht hfill => exact .unfit h (hfound _ ▸ ht) hfill
  | fallback h => exact .fallback h
  | template h => exact .template h

theorem SameInputs.of_found (hfound : ∀ b, q.found m₁ b = q.found m b)
    (hfound' : ∀ b, q'.found m₁ b = q'.found m b) (h : q.SameInputs q' m o) :
    q.SameInputs q' m₁ o := by
  cases o with
  | ruleResource | attributeResource | conventional =>
    refine ⟨h.1, fun a ha => ⟨(h.2 a ha).1, ?_⟩⟩
    rw [hfound, hfound', (h.2 a ha).2]
  | own | fallback | template | general => exact h

/-- The last resort is never silent. -/
theorem not_silent_general : ¬ q.Silent m .general := by
  intro h
  cases h with
  | unasked ho => cases ho
  | missing h | unfit h => cases h

/-- Nor is the message of a rule. -/
theorem not_silent_own (hown : q.own?.isSome = true) : ¬ q.Silent m .own := by
  intro h
  cases h with
  | own h =>
    rw [h] at hown
    cases hown
  | unasked ho => cases ho
  | missing h | unfit h => cases h

/-- An origin that is silent yields no text. -/
theorem Silent.not_yields (h : q.Silent m o) (text : String) : ¬ q.Yields m o text := by
  intro hyields
  cases hyields with
  | own hown | computed hown => exact not_silent_own (by rw [hown]; rfl) h
  | string hasked ht htext =>
    cases h with
    | unasked _ h => cases hasked.symm.trans h
    | missing h hmiss =>
      cases hasked.symm.trans h
      cases ht.symm.trans hmiss
    | unfit h ht' hfill =>
      cases hasked.symm.trans h
      cases ht.symm.trans ht'
      exact hfill.not_ok htext
    | own | fallback | template => cases hasked
  | fallback hfallback =>
    cases h with
    | fallback h => cases hfallback.symm.trans h
    | unasked ho => cases ho
    | missing h | unfit h => cases h
  | template hvalidator =>
    cases h with
    | template h => cases hvalidator.symm.trans h
    | unasked ho => cases ho
    | missing h | unfit h => cases h
  | general => exact not_silent_general h

/-- An origin yields at most one text. -/
theorem Yields.unique {text' : String} (h : q.Yields m o text) (h' : q.Yields m o text') :
    text' = text := by
  cases h with
  | own hown htext =>
    cases h' with
    | own hown' htext' =>
      cases hown.symm.trans hown'
      exact htext'.unique htext
    | computed hown' => cases hown.symm.trans hown'
    | string hasked => cases hasked
  | computed hown htext =>
    cases h' with
    | own hown' => cases hown.symm.trans hown'
    | computed _ htext' => exact Option.some.inj (htext'.symm.trans htext)
    | string hasked => cases hasked
  | string hasked ht htext =>
    cases h' with
    | string hasked' ht' htext' =>
      cases hasked.symm.trans hasked'
      cases ht.symm.trans ht'
      exact Except.ok.inj (htext'.symm.trans htext)
    | own | computed | fallback | template | general => cases hasked
  | fallback h =>
    cases h' with
    | fallback h' => exact Option.some.inj (h'.symm.trans h)
    | string hasked => cases hasked
  | template hvalidator htext =>
    cases h' with
    | template hvalidator' htext' =>
      cases hvalidator.symm.trans hvalidator'
      exact htext'.unique htext
    | string hasked => cases hasked
  | general =>
    cases h' with
    | general => rfl
    | string hasked => cases hasked

/-- **The search for a message is decided by the first origin with a text.**  All before it give
none, and a query that agrees on what these origins read leads to the same end. -/
theorem firstText_decided (hos : .general ∈ os) (h : q.firstText os m = (.ok text, m')) :
    ∃ before o after, os = before ++ o :: after ∧ (∀ p ∈ before, q.Silent m p) ∧
      q.Yields m o text ∧
      ∀ q' : Query, (∀ p ∈ before ++ [o], q.SameInputs q' m p) →
        q'.firstText os m = (.ok text, m') := by
  induction os generalizing m with
  | nil => cases hos
  | cons o os ih =>
    obtain ⟨r, m₁, ho, hrest⟩ := bind_eq_ok.mp h
    replace ho : q.text? o m = (.ok r, m₁) := ho
    obtain ⟨hends, hfound⟩ := text?_ends ho
    cases r with
    | some t =>
      cases hrest
      refine ⟨[], o, os, rfl, fun p hp => absurd hp List.not_mem_nil, hends, fun q' hsame => ?_⟩
      have ho' : q'.text? o m = (.ok (some text), m') :=
        text?_eq (hsame o List.mem_cons_self) ▸ ho
      exact bind_eq_ok.mpr ⟨some text, m', ho', rfl⟩
    | none =>
      have hos : .general ∈ os := by
        rcases List.mem_cons.mp hos with rfl | hos
        · exact absurd hends not_silent_general
        · exact hos
      obtain ⟨before, o', after, rfl, hsilent, hyields, hothers⟩ := ih hos hrest
      refine ⟨o :: before, o', after, rfl, ?_, hyields.of_found hfound, fun q' hsame => ?_⟩
      · rintro p (_ | ⟨_, hp⟩)
        · exact hends
        · exact (hsilent p hp).of_found hfound
      · have ho' : q'.text? o m = (.ok none, m₁) := text?_eq (hsame o List.mem_cons_self) ▸ ho
        refine bind_eq_ok.mpr ⟨none, m₁, ho', hothers q' fun p hp => ?_⟩
        exact (hsame p (List.mem_cons_of_mem o hp)).of_found hfound (text?_ends ho').2

end Query

/-! ## 6. Messages of an engine -/

end Message

/-- The query that an engine has to answer for a message of an object: the text of a computed
message is made first, and may have changed objects. -/
structure Engine.Poses (e : Engine) (w : Message.Wanted) (object : Value) (q : Message.Query)
    (ready : Engine) : Prop where
  computed : Action.computedText w.rule object e = (.ok q.computed, ready)
  sources : q.sources = ready.sources
  wanted : q.wanted = { w with validator := w.validator.map (Attribute.captured ready.world) }

namespace Message

variable {e e₁ ready : Engine} {w : Wanted} {object : Value} {q : Query} {text : String}

/-- Making the text of a computed message looks up nothing. -/
theorem computedText_eq_ok {rule : Option Rule} {computed : Option String}
    (h : Action.computedText rule object e = (.ok computed, ready)) :
    ready.lookups = e.lookups ∧
      ∀ x, rule.bind Rule.message = some (.computed x) → computed.isSome = true := by
  unfold Action.computedText at h
  rcases hmessage : rule.bind Rule.message with _ | t | x <;> simp only [hmessage] at h
  · cases h
    exact ⟨rfl, fun _ hx => by cases hx⟩
  · cases h
    exact ⟨rfl, fun _ hx => by cases hx⟩
  · obtain ⟨v, e₂, heval, hrest⟩ := bind_eq_ok.mp h
    have hlookups : e₂.lookups = e.lookups := by
      rw [Action.eval_apply] at heval
      rw [← (Prod.mk.inj heval).2]
    obtain ⟨e₃, e₄, hget, hrest⟩ := bind_eq_ok.mp hrest
    cases hget
    obtain ⟨t, e₅, hlift, hrest⟩ := bind_eq_ok.mp hrest
    rw [Action.lift_apply] at hlift
    obtain ⟨-, rfl⟩ := Prod.mk.inj hlift
    cases hrest
    exact ⟨hlookups, fun _ _ => rfl⟩

/-- There is one query to answer. -/
theorem posed_once {q' : Query} {ready' : Engine} (h : e.Poses w object q ready)
    (h' : e.Poses w object q' ready') : q' = q ∧ ready' = ready := by
  obtain ⟨hresult, rfl⟩ := Prod.mk.inj (h'.computed.symm.trans h.computed)
  obtain ⟨s, w, computed, _⟩ := q
  obtain ⟨s', w', computed', _⟩ := q'
  obtain rfl : computed' = computed := Except.ok.inj hresult
  obtain rfl : s = s' := h.sources.trans h'.sources.symm
  obtain rfl : w = w' := h.wanted.trans h'.wanted.symm
  exact ⟨rfl, rfl⟩

/-- A message that is found is the answer to the query that the engine has to answer. -/
theorem message_eq_ok (h : Action.message w object e = (.ok text, e₁)) :
    ∃ (q : Query) (ready : Engine), e.Poses w object q ready ∧
      q.firstText Origin.all e.lookups = (.ok text, e₁.lookups) := by
  obtain ⟨computed, ready, hcomputed, hrest⟩ := bind_eq_ok.mp h
  obtain ⟨hlookups, htext⟩ := computedText_eq_ok hcomputed
  obtain ⟨e₂, e₃, hget, hresolve⟩ := bind_eq_ok.mp hrest
  cases hget
  rw [Action.lookup_apply] at hresolve
  refine ⟨⟨ready.sources, { w with validator := w.validator.map (Attribute.captured ready.world) },
    computed, htext⟩, ready, ⟨hcomputed, rfl, rfl⟩, ?_⟩
  obtain ⟨hresult, rfl⟩ := Prod.mk.inj hresolve
  rw [← hlookups]
  exact Prod.ext hresult rfl

/-- The answer to the query that the engine has to answer is the message. -/
theorem message_of_firstText {m : Lookups} (hposes : e.Poses w object q ready)
    (h : q.firstText Origin.all e.lookups = (.ok text, m)) :
    Action.message w object e = (.ok text, { ready with lookups := m }) := by
  obtain ⟨hlookups, -⟩ := computedText_eq_ok hposes.computed
  refine (bind_ok hposes.computed).trans ((bind_ok (get_apply ready)).trans ?_)
  rw [Action.lookup_apply, ← hposes.sources, ← hposes.wanted, hlookups]
  have hresolve : Message.resolve q.sources q.wanted q.computed e.lookups = (.ok text, m) := h
  rw [hresolve]

/-- For the message of a rule nothing is looked up. -/
theorem firstText_own {m m' : Lookups} (hown : q.own?.isSome = true)
    (h : q.firstText Origin.all m = (.ok text, m')) : m' = m := by
  obtain ⟨r, m₁, ho, hrest⟩ := bind_eq_ok.mp h
  obtain ⟨hends, rfl⟩ := Query.own_ends ho
  cases r with
  | some t =>
    cases hrest
    rfl
  | none => exact absurd hends (Query.not_silent_own hown)

/-- **The message is the text of the first origin that gives one.**  All before it give none, and
what is behind it does not matter: another engine with the same memory finds the same message for
another object, rule and attribute, and is left with the same memory, as long as both agree on what
the origins up to this one read.  The message of a rule is the first of them, and nothing is looked
up for it. -/
theorem message_decided (h : Action.message w object e = (.ok text, e₁)) :
    ∃ (q : Query) (ready : Engine) (before after : List Origin) (o : Origin),
      e.Poses w object q ready ∧ Origin.all = before ++ o :: after ∧
      (∀ p ∈ before, q.Silent e.lookups p ∧ ∀ t, ¬ q.Yields e.lookups p t) ∧
      (∀ t, q.Yields e.lookups o t ↔ t = text) ∧
      (∀ (e' : Engine) (w' : Wanted) (object' : Value) (q' : Query) (ready' : Engine),
        e'.Poses w' object' q' ready' → e'.lookups = e.lookups →
        (∀ p ∈ before ++ [o], q.SameInputs q' e.lookups p) →
        ∃ e₁', Action.message w' object' e' = (.ok text, e₁') ∧ e₁'.lookups = e₁.lookups) ∧
      ((w.rule.bind Rule.message).isSome = true → o = .own ∧ e₁.lookups = e.lookups) := by
  obtain ⟨q, ready, hposes, hfirst⟩ := message_eq_ok h
  obtain ⟨before, o, after, hsplit, hsilent, hyields, hothers⟩ :=
    Query.firstText_decided (by decide) hfirst
  refine ⟨q, ready, before, after, o, hposes, hsplit,
    fun p hp => ⟨hsilent p hp, (hsilent p hp).not_yields⟩,
    fun t => ⟨hyields.unique, fun ht => ht ▸ hyields⟩, ?_, ?_⟩
  · intro e' w' object' q' ready' hposes' hlookups hsame
    have hfirst' := hothers q' hsame
    rw [← hlookups] at hfirst'
    exact ⟨_, message_of_firstText hposes' hfirst', rfl⟩
  · intro hmessage
    have hown : q.own?.isSome = true := by
      unfold Query.own?
      rw [hposes.wanted]
      exact hmessage
    refine ⟨?_, firstText_own hown hfirst⟩
    -- the message of the rule is the first origin, so it stands before all others or decides
    cases before with
    | nil => exact (List.cons.inj hsplit).1.symm
    | cons p ps =>
      obtain rfl := (List.cons.inj hsplit).1
      exact absurd (hsilent .own List.mem_cons_self) (Query.not_silent_own hown)

/-! ## 7. A notice from a resource

The rule names a string that is there.  A second attribute names one of a resource that fails
whenever it is asked, and a second rule has a fallback; neither is noticed. -/

namespace Notice

def texts : Catalog := { name := "Texts", tables := [("", [("needed", "\x7b0\x7d, please")])] }

/-- A class that looks its strings up itself, by calling a type that cannot be called so. -/
def failing : ResourceClass :=
  { name := "Failing", members := [("get_string", .value (.type (.builtin .int)))] }

def engine : Engine := { resources := [("Texts", .catalog texts), ("Failing", .members failing)] }

def rule (fallback : Option String) : Rule :=
  { id := 0
    member := { declaring := .declared "User", name := "email" }
    resourceKey := some "needed"
    resource := some "Texts"
    fallback
    uniqueKey := .anonymous 0 }

def wanted (key fallback : Option String) : Wanted :=
  { type := .declared "User"
    member := "email"
    validator := some { check := .required false, resourceKey := key, resource := some "Failing" }
    rule := some (rule fallback) }

def query (key fallback : Option String) : Query where
  sources := engine.sources
  wanted := { wanted key fallback with
    validator := (wanted key fallback).validator.map (Attribute.captured engine.world) }
  computed := none
  isComputed _ h := by cases h

theorem poses (key fallback : Option String) (object : Value) :
    engine.Poses (wanted key fallback) object (query key fallback) engine :=
  ⟨rfl, rfl, rfl⟩

theorem yields (key fallback : Option String) :
    (query key fallback).Yields {} .ruleResource "email, please" :=
  have hfill : fill "\x7b0\x7d, please" none [.text "email"] = .ok "email, please" :=
    ok_of_toOption (by decide +kernel)
  .string (a := (some "Texts", "needed")) rfl rfl hfill

theorem sameInputs (key fallback key' fallback' : Option String) (o : Origin)
    (ho : o = .own ∨ o = .ruleResource) :
    (query key fallback).SameInputs (query key' fallback') {} o := by
  rcases ho with rfl | rfl
  · exact ⟨rfl, fun _ => ⟨rfl, rfl⟩, fun _ => rfl⟩
  · exact ⟨rfl, fun a _ => ⟨⟨rfl, rfl⟩, rfl⟩⟩

end Notice

theorem message_decided_notice :
    (Notice.engine.resources.find (some "Failing") "unread" none).isOk = false ∧
    ∃ e₁ e₁', Action.message (Notice.wanted none none) .none Notice.engine =
        (.ok "email, please", e₁) ∧
      Action.message (Notice.wanted (some "unread") (some "unused")) (.int 0) Notice.engine =
        (.ok "email, please", e₁') ∧ e₁'.lookups = e₁.lookups := by
  obtain ⟨e₁, hrun⟩ : ∃ e₁, Action.message (Notice.wanted none none) .none Notice.engine =
      (.ok "email, please", e₁) := ⟨_, eq_ok_of_toOption (by decide +kernel)⟩
  obtain ⟨q, ready, before, after, o, hposes, hsplit, hsilent, -, hothers, -⟩ :=
    message_decided hrun
  obtain ⟨rfl, rfl⟩ := posed_once (Notice.poses none none .none) hposes
  -- the string of the rule is found, so nothing behind it is tried
  have htried : ∀ p ∈ before ++ [o], p = .own ∨ p = .ruleResource := by
    have hfound : .ruleResource ∉ before := fun hp =>
      (hsilent _ hp).2 _ (Notice.yields none none)
    rcases before with _ | ⟨p, _ | ⟨p', ps⟩⟩
    · cases hsplit
      simp
    · cases hsplit
      simp
    · obtain rfl := (List.cons.inj (List.cons.inj hsplit).2).1
      simp at hfound
  obtain ⟨e₁', hrun', hsame⟩ := hothers _ _ _ _ _ (Notice.poses (some "unread") (some "unused")
    (.int 0)) rfl fun p hp => Notice.sameInputs none none _ _ p (htried p hp)
  exact ⟨by decide +kernel, e₁, e₁', hrun, hrun', hsame⟩

end Message
end MemberRules
