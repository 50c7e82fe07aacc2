/-
# Why a template cannot be filled in

Filling in a template fails where a template does not fit its arguments: a position or a name that
there is no argument for, or a field that cannot be read.  Whoever fills in a message expects these
three faults and goes on without the text.

This file says which other faults there are, and what each of them needs.  An attribute can only be
missing where a field reads one.  A value of the wrong kind needs a field that reads an item by
something that is no number.  A length that nothing can have needs a layout that asks for it, or one
that is made of arguments.  All other faults come from an argument: a number that cannot be written
under a culture.

* `Template.Reason`: what in a template makes filling it in fail with an unexpected fault.
* `Culture.Unwritable`: what makes a number an argument without a text.
* `Message.fill_eq_error`: there are no other faults.
-/
import MemberRules.Proofs.Computation

namespace MemberRules

open MemberRules.Computation

/-- The faults of a template that does not fit its arguments: a missing position, an unknown name,
and everything malformed. -/
def Fault.IsUnfit (f : Fault) : Prop := f = .noIndex ∨ f = .noKey ∨ f = .badValue

namespace Template

/-! ## 1. Templates -/

/-- The fields among parts. -/
def fieldsOf (ps : List Part) : List Field := ps.filterMap fun
  | .field f => some f
  | _ => none

/-- A field and the fields of its layout. -/
def Field.withInner (f : Field) : List Field :=
  if f.layout.contains '\x7b' then f :: fieldsOf (parts f.layout) else [f]

/-- The fields of a template, with those of their layouts. -/
def fields (template : String) : List Field :=
  (fieldsOf (parts template.toList)).flatMap Field.withInner

/-- Whether an access reads an attribute. -/
def Access.isAttribute : Access → Bool
  | .attribute _ => true
  | _ => false

/-- Whether an access reads an item by something that is no number. -/
def Access.isNamedItem : Access → Bool
  | .item name => (index? name).isNone
  | _ => false

/-- Whether a field reads an attribute of its argument. -/
def Field.readsAttribute (f : Field) : Bool := (accesses f.name).any Access.isAttribute

/-- Whether a field reads an item of its argument by something that is no number. -/
def Field.readsNamedItem (f : Field) : Bool := (accesses f.name).any Access.isNamedItem

/-- Whether a field asks for a width that nothing can have, or for one that its layout makes of
arguments. -/
def Field.mayBeTooWide (f : Field) : Bool :=
  f.layout.contains '\x7b' ||
    (Layout.ofText? f.layout).any fun l => Fault.largestLength < l.width

/-- What makes filling in a field fail with a fault that is not expected. -/
inductive Field.Reason (f : Field) : Fault → Prop
  | readsAttribute (h : f.readsAttribute = true) : Reason f .noAttribute
  | readsNamedItem (h : f.readsNamedItem = true) : Reason f .wrongType
  | tooWide (h : f.mayBeTooWide = true) : Reason f .outOfMemory

/-- What makes filling in a template fail with a fault that is not expected. -/
def Reason (template : String) (fault : Fault) : Prop := ∃ f ∈ fields template, f.Reason fault

variable {fault : Fault} {args : Arguments} {n : Numbering}

theorem argument_eq_error {name : List Char} (h : argument args n name = .error fault) :
    fault.IsUnfit := by
  unfold argument at h
  dsimp only at h
  split at h
  · cases h
    exact .inr (.inr rfl)
  · split at h
    · cases h
      exact .inr (.inr rfl)
    · split at h <;> cases h
      exact .inl rfl
  · split at h
    · split at h
      · split at h <;> cases h
        exact .inl rfl
      · split at h <;> cases h
        exact .inl rfl
      · cases h
        exact .inr (.inr rfl)
    · split at h <;> cases h
      exact .inr (.inl rfl)

theorem access_eq_error {s : String} {a : Access} (h : access s a = .error fault) :
    fault.IsUnfit ∨ a.isAttribute = true ∧ fault = .noAttribute ∨
      a.isNamedItem = true ∧ fault = .wrongType := by
  unfold access at h
  split at h
  · cases h
    exact .inl (.inr (.inr rfl))
  · cases h
    exact .inr (.inl ⟨rfl, rfl⟩)
  · split at h
    · rename_i hindex
      cases h
      exact .inr (.inr ⟨by simp [Access.isNamedItem, hindex], rfl⟩)
    · cases h
      exact .inl (.inr (.inr rfl))
    · split at h <;> cases h
      exact .inl (.inl rfl)

/-- Reading attributes and items one after the other fails at one of them. -/
theorem accesses_eq_error {s : String} {as : List Access} (h : as.foldlM access s = .error fault) :
    fault.IsUnfit ∨ as.any Access.isAttribute = true ∧ fault = .noAttribute ∨
      as.any Access.isNamedItem = true ∧ fault = .wrongType := by
  induction as generalizing s with
  | nil => cases h
  | cons a as ih =>
    rw [List.foldlM_cons] at h
    rw [List.any_cons, List.any_cons, Bool.or_eq_true, Bool.or_eq_true]
    rcases except_bind_eq_error h with h | ⟨s', -, h⟩
    · rcases access_eq_error h with hunfit | ⟨ha, hf⟩ | ⟨ha, hf⟩
      · exact .inl hunfit
      · exact .inr (.inl ⟨.inl ha, hf⟩)
      · exact .inr (.inr ⟨.inl ha, hf⟩)
    · rcases ih h with hunfit | ⟨ha, hf⟩ | ⟨ha, hf⟩
      · exact .inl hunfit
      · exact .inr (.inl ⟨.inr ha, hf⟩)
      · exact .inr (.inr ⟨.inr ha, hf⟩)

theorem convert_eq_error {s : String} {c : Option Char} (h : convert s c = .error fault) :
    fault.IsUnfit := by
  unfold convert at h
  split at h <;> cases h
  exact .inr (.inr rfl)

/-- Filling in parts fails at a field, or at a part that cannot be read. -/
theorem renderParts_eq_error {field : Numbering → Field → Filled} {ps : List Part}
    (h : renderParts field n ps = .error fault) :
    fault.IsUnfit ∨ ∃ f ∈ fieldsOf ps, ∃ n', field n' f = .error fault := by
  induction ps generalizing n with
  | nil => cases h
  | cons p ps ih =>
    cases p with
    | malformed =>
      cases h
      exact .inl (.inr (.inr rfl))
    | literal s =>
      rcases except_bind_eq_error h with h | ⟨rest, -, h⟩
      · exact ih h
      · cases h
    | field f =>
      rcases except_bind_eq_error h with h | ⟨filled, -, h⟩
      · exact .inr ⟨f, List.mem_cons_self, n, h⟩
      · rcases except_bind_eq_error h with h | ⟨rest, -, h⟩
        · exact (ih h).imp_right fun ⟨f', hf, hfault⟩ => ⟨f', List.mem_cons_of_mem _ hf, hfault⟩
        · cases h

/-- The last part of filling in a field: its text in its layout. -/
def laidOut (s : String) (layout : List Char) (n : Numbering) : Filled :=
  match Layout.ofText? layout with
  | some l => do
    Fault.checkLength l.width
    return (l.apply s.toList, n)
  | none => .error .badValue

theorem laidOut_eq_error {s : String} {layout : List Char}
    (h : laidOut s layout n = .error fault) : fault.IsUnfit ∨
      fault = .outOfMemory ∧
        ((Layout.ofText? layout).any fun l => Fault.largestLength < l.width) = true := by
  unfold laidOut at h
  split at h
  · rename_i l hl
    rcases except_bind_eq_error h with h | ⟨_, -, h⟩
    · unfold Fault.checkLength at h
      split at h <;> cases h
      rename_i hwide
      exact .inr ⟨rfl, by simpa [hl] using hwide⟩
    · cases h
  · cases h
    exact .inl (.inr (.inr rfl))

/-- The layout of a field, with the fields in it filled in. -/
def layoutText (layoutParts : Option (Numbering → List Part → Filled)) (n : Numbering) (f : Field) :
    Filled :=
  if f.layout.contains '\x7b' then
    match layoutParts with
    | none => .error .badValue
    | some fill => fill n (parts f.layout)
  else .ok (f.layout, n)

/-- Filling in a field, one step after the other. -/
theorem renderField_eq (args : Arguments) (layoutParts : Option (Numbering → List Part → Filled))
    (n : Numbering) (f : Field) : renderField args layoutParts n f =
      argument args n (argumentName f.name) >>= fun x =>
        (accesses f.name).foldlM access x.1 >>= fun s => convert s f.conversion >>= fun s =>
          layoutText layoutParts x.2 f >>= fun y => laidOut s y.1 y.2 := by
  unfold renderField layoutText
  cases argument args n (argumentName f.name) with
  | error e => rfl
  | ok x =>
    refine congrArg (List.foldlM access x.1 (accesses f.name) >>= ·) (funext fun s => ?_)
    refine congrArg (convert s f.conversion >>= ·) (funext fun s => ?_)
    split
    · cases layoutParts <;> rfl
    · rfl

/-- **Why a field cannot be filled in**: its argument is missing or cannot be read as asked, or the
field asks for too much, or the fields of its layout cannot be filled in. -/
theorem renderField_eq_error {layoutParts : Option (Numbering → List Part → Filled)} {f : Field}
    (h : renderField args layoutParts n f = .error fault) :
    fault.IsUnfit ∨ f.Reason fault ∨ f.layout.contains '\x7b' = true ∧
      ∃ fill, layoutParts = some fill ∧ ∃ n', fill n' (parts f.layout) = .error fault := by
  rw [renderField_eq] at h
  rcases except_bind_eq_error h with h | ⟨⟨s, n₁⟩, -, h⟩
  · exact .inl (argument_eq_error h)
  rcases except_bind_eq_error h with h | ⟨s', -, h⟩
  · rcases accesses_eq_error h with hunfit | ⟨hreads, rfl⟩ | ⟨hreads, rfl⟩
    · exact .inl hunfit
    · exact .inr (.inl (.readsAttribute hreads))
    · exact .inr (.inl (.readsNamedItem hreads))
  rcases except_bind_eq_error h with h | ⟨s'', -, h⟩
  · exact .inl (convert_eq_error h)
  rcases except_bind_eq_error h with h | ⟨⟨layout, n₂⟩, hlayout, h⟩
  · unfold layoutText at h
    split at h
    · rename_i hopen
      cases layoutParts with
      | none =>
        cases h
        exact .inl (.inr (.inr rfl))
      | some fill => exact .inr (.inr ⟨hopen, fill, rfl, n₁, h⟩)
    · cases h
  · rcases laidOut_eq_error h with hunfit | ⟨rfl, hwide⟩
    · exact .inl hunfit
    · refine .inr (.inl (.tooWide ?_))
      unfold Field.mayBeTooWide
      unfold layoutText at hlayout
      split at hlayout
      · rename_i hopen
        rw [hopen, Bool.true_or]
      · cases hlayout
        rw [hwide, Bool.or_true]

/-- **Why a template cannot be filled in.** -/
theorem render_eq_error {template : String} (h : render template args = .error fault) :
    fault.IsUnfit ∨ Reason template fault := by
  have hparts : renderParts (renderField args (some (renderParts (renderField args none))))
      .undecided (parts template.toList) = .error fault := by
    unfold render at h
    dsimp only at h
    rcases hr : renderParts (renderField args (some (renderParts (renderField args none))))
      .undecided (parts template.toList) with f | r <;> rw [hr] at h <;> cases h
    rfl
  rcases renderParts_eq_error hparts with hunfit | ⟨f, hf, n', h⟩
  · exact .inl hunfit
  have houter : ∀ g ∈ f.withInner, g ∈ fields template := fun g hg => List.mem_flatMap.mpr ⟨f, hf, hg⟩
  rcases renderField_eq_error h with hunfit | hreason | ⟨hopen, fill, hfill, n'', h⟩
  · exact .inl hunfit
  · refine .inr ⟨f, houter f ?_, hreason⟩
    unfold Field.withInner
    split <;> exact List.mem_cons_self
  · cases hfill
    rcases renderParts_eq_error h with hunfit | ⟨g, hg, n₁, h⟩
    · exact .inl hunfit
    · rcases renderField_eq_error h with hunfit | hreason | ⟨-, fill, hnone, -⟩
      · exact .inl hunfit
      · refine .inr ⟨g, houter g ?_, hreason⟩
        unfold Field.withInner
        rw [if_pos hopen]
        exact List.mem_cons_of_mem f hg
      · cases hnone

end Template

/-! ## 2. Arguments -/

namespace Culture

open Number (Decimal)

/-- What makes a number an argument without a text under a culture: it has no decimal within the
range of decimals, or takes more digits than decimals have to show its places. -/
inductive Unwritable (v : Value) : Fault → Prop
  | tooLarge {negative : Bool} {coeff : Nat} {exp : Int}
    (number : asDecimal? v = some (.finite negative coeff exp))
    (h : Decimal.round negative coeff exp = .error .overflow) : Unwritable v .decimalOverflow
  | tooLong {negative sign : Bool} {coeff c : Nat} {exp e : Int}
    (number : asDecimal? v = some (.finite negative coeff exp))
    (rounded : Decimal.round negative coeff exp = .ok (.finite sign c e))
    (h : digitsNeeded (Decimal.stripZeros (Number.digitCount c) c e).1
      (Decimal.stripZeros (Number.digitCount c) c e).2 > Decimal.precision) :
    Unwritable v .invalidOperation

variable {v : Value} {fault : Fault}

theorem round_eq_error {negative : Bool} {coeff : Nat} {exp : Int} {f : Decimal.Failure}
    (h : Decimal.round negative coeff exp = .error f) : f = .overflow := by
  unfold Decimal.round at h
  split at h
  · cases h
  · dsimp only at h
    split at h
    · split at h <;> cases h
      rfl
    · split at h <;> cases h
      rfl

theorem plainText_eq_error {mark : String} {coeff : Nat} {exp : Int}
    (h : plainText mark coeff exp = .error fault) :
    fault = .badValue ∨ fault = .invalidOperation ∧ digitsNeeded coeff exp > Decimal.precision := by
  unfold plainText at h
  split at h
  · rename_i hdigits
    cases h
    rw [Bool.and_eq_true, decide_eq_true_eq] at hdigits
    exact .inr ⟨rfl, hdigits.2⟩
  · split at h <;> cases h
    exact .inl rfl

theorem decimalText_eq_error {k : Conventions} {d : Decimal} (hv : asDecimal? v = some d)
    (h : decimalText k d = .error fault) : fault = .badValue ∨ Unwritable v fault := by
  unfold decimalText at h
  split at h
  · cases h
  · cases h
  · split at h
    · rename_i hround
      cases h
      obtain rfl := round_eq_error hround
      exact .inr (.tooLarge hv hround)
    · rename_i sign c e hround
      dsimp only at h
      rcases hp : plainText k.decimalMark (Decimal.stripZeros (Number.digitCount c) c e).1
        (Decimal.stripZeros (Number.digitCount c) c e).2 with f | s <;> rw [hp] at h <;> cases h
      rcases plainText_eq_error hp with rfl | ⟨rfl, hdigits⟩
      · exact .inl rfl
      · exact .inr (.tooLong hv hround hdigits)
    · cases h

theorem printed?_eq_error (h : v.printed? = .error fault) : fault = .badValue := by
  unfold Value.printed? at h
  split at h <;> cases h
  rfl

/-- **Why an argument has no text**: it is a number with too many digits to be written at all, or one
that cannot be written under a culture. -/
theorem formatValue_eq_error {culture : Option Culture} (h : formatValue culture v = .error fault) :
    fault = .badValue ∨ culture.isSome = true ∧ Unwritable v fault := by
  have hunder : ∀ c, formatUnder c v = .error fault → fault = .badValue ∨ Unwritable v fault := by
    intro c h
    unfold formatUnder at h
    dsimp only at h
    split at h
    · rename_i d hd
      split at h
      · exact decimalText_eq_error hd h
      · cases h
        exact .inl rfl
    · split at h
      · cases h
      · cases h
      · cases h
      · exact .inl (printed?_eq_error h)
  unfold formatValue at h
  split at h
  · exact .inl (printed?_eq_error h)
  · cases h
  · split at h
    · exact .inl (printed?_eq_error h)
    · exact (hunder _ h).imp_right fun h => ⟨rfl, h⟩

end Culture

/-! ## 3. Messages -/

namespace Message

/-- What makes filling in a template for a culture fail with a fault that is not expected: a field of
the template, or an argument without a text. -/
def Reason (template : String) (culture : Option Culture) (args : List Value) (fault : Fault) :
    Prop :=
  Template.Reason template fault ∨ culture.isSome = true ∧ ∃ v ∈ args, Culture.Unwritable v fault

variable {culture : Option Culture} {fault : Fault}

/-- **There are no other faults.** -/
theorem fill_eq_error {template : String} {args : List Value}
    (h : fill template culture args = .error fault) :
    fault.IsUnfit ∨ Reason template culture args fault := by
  have hfill : fill template culture args =
      args.mapM (Culture.formatValue culture) >>= fun texts => Template.render template ⟨texts, []⟩ :=
    rfl
  rw [hfill] at h
  rcases except_bind_eq_error h with h | ⟨texts, -, h⟩
  · obtain ⟨v, hv, h⟩ := except_mapM_eq_error h
    rcases Culture.formatValue_eq_error h with rfl | ⟨hculture, hunwritable⟩
    · exact .inl (.inr (.inr rfl))
    · exact .inr (.inr ⟨hculture, v, hv, hunwritable⟩)
  · exact (Template.render_eq_error h).imp_right .inl

end Message
end MemberRules
