/-
# A memory that makes no difference

A resolver remembers the strings that it has looked up, and the misses, by resource, key and the name
of the culture, until its memory is cleared.  Nobody can tell: whatever was asked of it before, a
resolver answers as one that remembers nothing.  What carries this is that a memory gives for every
resource, key and culture what the resource gives, the miss or the string; a call leaves such a memory
if it found one, and an empty memory is one.

The name of a culture has to say where strings are searched for, so the language of every culture has
to be a word.  It is one in every culture that is read (`Culture.parse_isWorded`).

* `Resolver.Call`: what can be asked of a resolver.
* `Resolver.SameAnswers`: engines that differ in their memories and logs, and remember nothing wrong.
* `Resolver.Call.run_respects`: one call answers the same from both, and keeps them so.
* `Resolver.memory_transparent`: so all calls do, and no string or miss answers for another.
-/
import MemberRules.Proofs.Message.Lookups
import MemberRules.Proofs.Respects
import MemberRules.Rule.Search

namespace MemberRules

open MemberRules.Computation

/-! ## 1. Calls -/

/-- An engine that has forgotten what was looked up. -/
def Engine.forgetful (e : Engine) : Engine := { e with lookups := { e.lookups with known := [] } }

namespace Resolver

/-- What can be asked of a resolver. -/
inductive Call
  /-- A message for an object, under a culture of the surroundings. -/
  | message (ambient : Option Culture) (wanted : Message.Wanted) (object : Value)
  /-- The string of a key. -/
  | string (resource : Option String) (key : String) (culture : Option Culture)
  /-- To forget everything. -/
  | clear

/-- What a resolver answers. -/
inductive Answer
  | message (text : String)
  | string (found : Except AppError String)
  | cleared

namespace Call

/-- A call as a step of the engine. -/
def run : Call → Action Answer
  | message ambient w object => do
    return .message (← Action.within ambient (Action.message w object))
  | string resource key culture => do
    let s := (← get).sources
    return .string (← Action.lookup (Message.findString s resource key culture))
  | clear => do
    Action.forgetLookups
    return .cleared

/-- The culture under which a call looks up strings. -/
def culture (s : Message.Sources) : Call → Option Culture
  | message ambient w _ => Message.cultureFor { s with ambient } w.rule
  | string _ _ culture => culture
  | clear => none

end Call

/-- The engine after a list of calls. -/
def after : List Call → Engine → Engine
  | [], e => e
  | c :: cs, e => after cs (c.run e).2

/-- The answers to a list of calls. -/
def answers : List Call → Engine → List (Except Fault Answer)
  | [], _ => []
  | c :: cs, e => (c.run e).1 :: answers cs (c.run e).2

/-- The answers to a list of calls if everything is forgotten before each of them. -/
def answersAfresh : List Call → Engine → List (Except Fault Answer)
  | [], _ => []
  | c :: cs, e => (c.run e.forgetful).1 :: answersAfresh cs (c.run e.forgetful).2

/-! ## 2. Memories with nothing wrong in them -/

/-- A memory that gives for every key what the resource gives. -/
abbrev Faithful (rs : Resources) (m : Lookups) : Prop :=
  Lookups.Recalls rs Culture.IsWorded {} m

theorem Faithful.of_empty {rs : Resources} {m : Lookups} (h : m.known = []) : Faithful rs m := by
  intro resource key culture _
  unfold Lookups.answerFor
  rw [h]

/-- What such a memory gives is what the resource gives. -/
theorem Faithful.find_eq {rs : Resources} {m : Lookups} (h : Faithful rs m)
    {culture : Option Culture} (hc : Culture.IsWorded culture) (resource : Option String)
    (key : String) :
    (Lookups.find rs resource key culture m).1 = rs.find resource key culture := by
  rw [Lookups.find_fst, h resource key culture hc]
  rfl

/-- What such a memory holds is what the resource gives. -/
theorem Faithful.known_eq {rs : Resources} {m : Lookups} (h : Faithful rs m)
    {culture : Option Culture} (hc : Culture.IsWorded culture) {resource : Option String}
    {key : String} {answer : Except AppError String}
    (hknown : m.known.lookup ⟨resource, key, Culture.nameOf culture⟩ = some answer) :
    rs.find resource key culture = .ok answer := by
  have hrecalls := h resource key culture hc
  unfold Lookups.answerFor at hrecalls
  rw [hknown] at hrecalls
  exact hrecalls.symm

/-- Engines that differ in their memories and logs, and remember nothing wrong; resources, options and
surroundings are those of `base`. -/
structure SameAnswers (base e e' : Engine) : Prop where
  same : e' = { e with lookups := e'.lookups }
  resources : e.resources = base.resources
  options : e.options = base.options
  ambient : e.ambient = base.ambient
  left : Faithful base.resources e.lookups
  right : Faithful base.resources e'.lookups

namespace SameAnswers

variable {base e e' : Engine}

theorem world_eq (h : SameAnswers base e e') : e'.world = e.world := by rw [h.same]

theorem sources_eq (h : SameAnswers base e e') : e'.sources = e.sources := by rw [h.same]; rfl

theorem cultureFor_eq (h : SameAnswers base e e') (rule : Option Rule) :
    Message.cultureFor e.sources rule = Message.cultureFor base.sources rule := by
  show (rule.bind Rule.culture).or (e.options.sharedCulture.or
    (e.ambient.or e.options.defaultCulture)) = _
  rw [h.options, h.ambient]
  rfl

/-- The same engines under other surroundings. -/
theorem within (h : SameAnswers base e e') (ambient : Option Culture) :
    SameAnswers { base with ambient } { e with ambient } { e' with ambient } :=
  ⟨by rw [h.same], h.resources, h.options, rfl, h.left, h.right⟩

/-- Forgetting is never wrong. -/
theorem forgetful (h : SameAnswers base e e') : SameAnswers base e e'.forgetful :=
  ⟨by rw [Engine.forgetful, h.same], h.resources, h.options, h.ambient, h.left, .of_empty rfl⟩

theorem of_empty (h : e.lookups.known = []) : SameAnswers e e e :=
  ⟨rfl, rfl, rfl, rfl, .of_empty h, .of_empty h⟩

end SameAnswers

/-! ## 3. One call -/

section

variable {base : Engine}

theorem eval_respects {α : Type} (x : Eval α) :
    Action.Respects (SameAnswers base) (Action.eval x) := by
  intro e e' he
  rw [Action.eval_apply, Action.eval_apply, he.world_eq]
  exact ⟨rfl, by rw [he.same], he.resources, he.options, he.ambient, he.left, he.right⟩

theorem find_respects (rs : Resources) {culture : Option Culture} (hc : Culture.IsWorded culture)
    (resource : Option String) (key : String) :
    Lookup.Respects (fun m m' => Faithful rs m ∧ Faithful rs m')
      (Lookups.find rs resource key culture) :=
  Lookups.respects_find (fun _ h => h) hc resource key

/-- A look-up that respects memories with nothing wrong in them does so as a step of the engine. -/
theorem lookup_respects {α : Type} {x : Lookup α}
    (h : Lookup.Respects (fun m m' => Faithful base.resources m ∧ Faithful base.resources m') x) :
    Action.Respects (SameAnswers base) (Action.lookup x) := by
  intro e e' he
  obtain ⟨hresult, hleft, hright⟩ := h e.lookups e'.lookups ⟨he.left, he.right⟩
  rw [Action.lookup_apply, Action.lookup_apply]
  exact ⟨hresult, by rw [he.same], he.resources, he.options, he.ambient, hleft, hright⟩

theorem computedText_respects (r : Option Rule) (object : Value) :
    Action.Respects (SameAnswers base) (Action.computedText r object) := by
  unfold Action.computedText
  split
  · refine .bind (eval_respects _) fun v => .get_bind fun e e' he => ?_
    rw [he.world_eq]
    exact Action.Respects.bind (.lift _) (fun _ => .pure _) e e' he
  · exact .pure _

/-- A message under a culture whose language is a word. -/
theorem message_respects {w : Message.Wanted}
    (hc : Culture.IsWorded (Message.cultureFor base.sources w.rule)) (object : Value) :
    Action.Respects (SameAnswers base) (Action.message w object) := by
  refine .bind (computedText_respects w.rule object) fun computed => .get_bind fun e e' he => ?_
  rw [he.world_eq, he.sources_eq]
  refine lookup_respects (.firstText (fun _ _ _ h => h) (fun resource key => ?_) _ _) e e' he
  dsimp only
  rw [he.cultureFor_eq]
  have hfind := find_respects base.resources hc resource key
  rwa [← he.resources] at hfind ⊢

theorem within_apply {α : Type} (ambient : Option Culture) (x : Action α) (e : Engine) :
    Action.within ambient x e = ((x { e with ambient }).1,
      { (x { e with ambient }).2 with ambient := e.ambient }) := rfl

theorem within_respects {α : Type} {x : Action α} {ambient : Option Culture}
    (h : Action.Respects (SameAnswers { base with ambient }) x) :
    Action.Respects (SameAnswers base) (Action.within ambient x) := by
  intro e e' he
  obtain ⟨hresult, hleft⟩ := h _ _ (he.within ambient)
  have hback := hleft.within base.ambient
  have hbefore : e'.ambient = base.ambient := by rw [he.same]; exact he.ambient
  rw [within_apply, within_apply, he.ambient, hbefore]
  exact ⟨hresult, hback⟩

theorem findString_respects {culture : Option Culture} (hc : Culture.IsWorded culture)
    (resource : Option String) (key : String) :
    Action.Respects (SameAnswers base) (Call.string resource key culture).run := by
  refine .get_bind fun e e' he => ?_
  rw [he.sources_eq]
  refine Action.Respects.bind (lookup_respects ?_) (fun _ => .pure _) e e' he
  have hfind := find_respects base.resources hc resource key
  rwa [← he.resources] at hfind ⊢

/-- **One call answers the same** from engines that remember nothing wrong, and keeps them so. -/
theorem Call.run_respects {c : Call} (hc : Culture.IsWorded (c.culture base.sources)) :
    Action.Respects (SameAnswers base) c.run := by
  cases c with
  | message ambient w object =>
    have hworded : Culture.IsWorded
        (Message.cultureFor ({ base with ambient } : Engine).sources w.rule) := hc
    exact .bind (within_respects (message_respects hworded object)) fun _ => .pure _
  | string resource key culture => exact findString_respects hc resource key
  | clear =>
    refine .bind (.change fun e e' he => ?_) fun _ => .pure _
    exact ⟨by rw [he.same], he.resources, he.options, he.ambient, .of_empty rfl, .of_empty rfl⟩

end

/-! ## 4. All calls -/

section

variable {base e e' : Engine} {cs : List Call}

/-- A resolver that remembers answers as one that forgets everything before each call. -/
theorem answers_eq_afresh (hcs : ∀ c ∈ cs, Culture.IsWorded (c.culture base.sources))
    (he : SameAnswers base e e') : answers cs e = answersAfresh cs e' := by
  induction cs generalizing e e' with
  | nil => rfl
  | cons c cs ih =>
    obtain ⟨hanswer, hleft⟩ := c.run_respects (hcs c List.mem_cons_self) e e'.forgetful he.forgetful
    have hrest := ih (fun c hc => hcs c (List.mem_cons_of_mem _ hc)) hleft
    unfold answers answersAfresh
    rw [hanswer, hrest]

/-- No list of calls leaves anything wrong in a memory. -/
theorem after_sameAnswers (hcs : ∀ c ∈ cs, Culture.IsWorded (c.culture base.sources))
    (he : SameAnswers base e e') : SameAnswers base (after cs e) (after cs e') := by
  induction cs generalizing e e' with
  | nil => exact he
  | cons c cs ih =>
    obtain ⟨-, hleft⟩ := c.run_respects (hcs c List.mem_cons_self) e e' he
    exact ih (fun c hc => hcs c (List.mem_cons_of_mem _ hc)) hleft

end

/-! ## 5. A greeting

The greeting is there in French alone.  That there is none for the invariant culture is remembered,
and so is the French one that is found for a greeting of the territory. -/

namespace Greeting

def texts : Catalog := { name := "Texts", tables := [("fr", [("greeting", "Bonjour")])] }

def engine : Engine := { resources := [("Texts", .catalog texts)] }

def french : Culture := { language := "fr" }

def wanted : Message.Wanted :=
  { type := .declared "User"
    member := "name"
    validator := some {
      check := .required false
      resourceKey := some "greeting"
      resource := some "Texts" } }

def calls : List Call :=
  [.string (some "Texts") "greeting" none, .message (some french) wanted .none,
    .string (some "Texts") "greeting" (some { french with territory := some "FR" })]

theorem isWorded (culture : Option Culture) (h : ∀ c ∈ culture, c.language = "fr") :
    Culture.IsWorded culture := by
  intro c hc
  rw [h c hc]
  decide +kernel

end Greeting

end Resolver
end MemberRules
