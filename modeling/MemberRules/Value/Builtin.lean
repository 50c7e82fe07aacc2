/-
# What built-in types hold

Every built-in type has members of its own beside those of the types that it derives from. A few of
them are data that can be read from a value: the parts of a number, of a moment of the calendar and
of an enumeration member, the names of a type. All others can be read as well, but what is read has
no written form.

Names with two low lines on both sides belong to what every type provides; they can be read but not
be selected as members.
-/
import MemberRules.Value.Basic

namespace MemberRules

/-! ## 1. Names -/

namespace BuiltinType

/-- The names that a built-in type holds itself, in lines with blanks between them. -/
def nameLines : BuiltinType → List String
  | nothing => ["__bool__ __doc__ __new__ __repr__"]
  | bool => ["__and__ __doc__ __new__ __or__ __rand__ __repr__ __ror__ __rxor__ __xor__"]
  | int =>
    ["__abs__ __add__ __and__ __bool__ __ceil__ __divmod__ __doc__ __eq__ __float__ __floor__",
     "__floordiv__ __format__ __ge__ __getattribute__ __getnewargs__ __gt__ __hash__ __index__",
     "__int__ __invert__ __le__ __lshift__ __lt__ __mod__ __mul__ __ne__ __neg__ __new__ __or__",
     "__pos__ __pow__ __radd__ __rand__ __rdivmod__ __repr__ __rfloordiv__ __rlshift__ __rmod__",
     "__rmul__ __ror__ __round__ __rpow__ __rrshift__ __rshift__ __rsub__ __rtruediv__ __rxor__",
     "__sizeof__ __sub__ __truediv__ __trunc__ __xor__ as_integer_ratio bit_count bit_length",
     "conjugate denominator from_bytes imag numerator real to_bytes"]
  | float =>
    ["__abs__ __add__ __bool__ __ceil__ __divmod__ __doc__ __eq__ __float__ __floor__ __floordiv__",
     "__format__ __ge__ __getattribute__ __getformat__ __getnewargs__ __gt__ __hash__ __int__",
     "__le__ __lt__ __mod__ __mul__ __ne__ __neg__ __new__ __pos__ __pow__ __radd__ __rdivmod__",
     "__repr__ __rfloordiv__ __rmod__ __rmul__ __round__ __rpow__ __rsub__ __rtruediv__ __sub__",
     "__truediv__ __trunc__ as_integer_ratio conjugate fromhex hex imag is_integer real"]
  | text =>
    ["__add__ __contains__ __doc__ __eq__ __format__ __ge__ __getattribute__ __getitem__",
     "__getnewargs__ __gt__ __hash__ __iter__ __le__ __len__ __lt__ __mod__ __mul__ __ne__ __new__",
     "__repr__ __rmod__ __rmul__ __sizeof__ __str__ capitalize casefold center count encode",
     "endswith expandtabs find format format_map index isalnum isalpha isascii isdecimal isdigit",
     "isidentifier islower isnumeric isprintable isspace istitle isupper join ljust lower lstrip",
     "maketrans partition removeprefix removesuffix replace rfind rindex rjust rpartition rsplit",
     "rstrip split splitlines startswith strip swapcase title translate upper zfill"]
  | bytes =>
    ["__add__ __bytes__ __contains__ __doc__ __eq__ __ge__ __getattribute__ __getitem__",
     "__getnewargs__ __gt__ __hash__ __iter__ __le__ __len__ __lt__ __mod__ __mul__ __ne__ __new__",
     "__repr__ __rmod__ __rmul__ __str__ capitalize center count decode endswith expandtabs find",
     "fromhex hex index isalnum isalpha isascii isdigit islower isspace istitle isupper join ljust",
     "lower lstrip maketrans partition removeprefix removesuffix replace rfind rindex rjust",
     "rpartition rsplit rstrip split splitlines startswith strip swapcase title translate upper",
     "zfill"]
  | decimal =>
    ["__abs__ __add__ __bool__ __ceil__ __complex__ __copy__ __deepcopy__ __divmod__ __doc__",
     "__eq__ __float__ __floor__ __floordiv__ __format__ __ge__ __getattribute__ __gt__ __hash__",
     "__int__ __le__ __lt__ __mod__ __module__ __mul__ __ne__ __neg__ __new__ __pos__ __pow__",
     "__radd__ __rdivmod__ __reduce__ __repr__ __rfloordiv__ __rmod__ __rmul__ __round__ __rpow__",
     "__rsub__ __rtruediv__ __sizeof__ __str__ __sub__ __truediv__ __trunc__ adjusted",
     "as_integer_ratio as_tuple canonical compare compare_signal compare_total compare_total_mag",
     "conjugate copy_abs copy_negate copy_sign exp fma from_float imag is_canonical is_finite",
     "is_infinite is_nan is_normal is_qnan is_signed is_snan is_subnormal is_zero ln log10 logb",
     "logical_and logical_invert logical_or logical_xor max max_mag min min_mag next_minus",
     "next_plus next_toward normalize number_class quantize radix real remainder_near rotate",
     "same_quantum scaleb shift sqrt to_eng_string to_integral to_integral_exact to_integral_value"]
  | date =>
    ["__add__ __doc__ __eq__ __format__ __ge__ __getattribute__ __gt__ __hash__ __le__ __lt__",
     "__ne__ __new__ __radd__ __reduce__ __repr__ __rsub__ __str__ __sub__ ctime day",
     "fromisocalendar fromisoformat fromordinal fromtimestamp isocalendar isoformat isoweekday max",
     "min month replace resolution strftime timetuple today toordinal weekday year"]
  | dateTime =>
    ["__add__ __doc__ __eq__ __ge__ __getattribute__ __gt__ __hash__ __le__ __lt__ __ne__ __new__",
     "__radd__ __reduce__ __reduce_ex__ __repr__ __rsub__ __str__ __sub__ astimezone combine ctime",
     "date dst fold fromisoformat fromtimestamp hour isoformat max microsecond min minute now",
     "replace resolution second strptime time timestamp timetuple timetz tzinfo tzname",
     "utcfromtimestamp utcnow utcoffset utctimetuple"]
  | time =>
    ["__doc__ __eq__ __format__ __ge__ __getattribute__ __gt__ __hash__ __le__ __lt__ __ne__",
     "__new__ __reduce__ __reduce_ex__ __repr__ __str__ dst fold fromisoformat hour isoformat max",
     "microsecond min minute replace resolution second strftime tzinfo tzname utcoffset"]
  | list =>
    ["__add__ __class_getitem__ __contains__ __delitem__ __doc__ __eq__ __ge__ __getattribute__",
     "__getitem__ __gt__ __hash__ __iadd__ __imul__ __init__ __iter__ __le__ __len__ __lt__",
     "__mul__ __ne__ __new__ __repr__ __reversed__ __rmul__ __setitem__ __sizeof__ append clear",
     "copy count extend index insert pop remove reverse sort"]
  | tuple =>
    ["__add__ __class_getitem__ __contains__ __doc__ __eq__ __ge__ __getattribute__ __getitem__",
     "__getnewargs__ __gt__ __hash__ __iter__ __le__ __len__ __lt__ __mul__ __ne__ __new__",
     "__repr__ __rmul__ count index"]
  | set =>
    ["__and__ __class_getitem__ __contains__ __doc__ __eq__ __ge__ __getattribute__ __gt__",
     "__hash__ __iand__ __init__ __ior__ __isub__ __iter__ __ixor__ __le__ __len__ __lt__ __ne__",
     "__new__ __or__ __rand__ __reduce__ __repr__ __ror__ __rsub__ __rxor__ __sizeof__ __sub__",
     "__xor__ add clear copy difference difference_update discard intersection intersection_update",
     "isdisjoint issubset issuperset pop remove symmetric_difference symmetric_difference_update",
     "union update"]
  | dict =>
    ["__class_getitem__ __contains__ __delitem__ __doc__ __eq__ __ge__ __getattribute__",
     "__getitem__ __gt__ __hash__ __init__ __ior__ __iter__ __le__ __len__ __lt__ __ne__ __new__",
     "__or__ __repr__ __reversed__ __ror__ __setitem__ __sizeof__ clear copy fromkeys get items",
     "keys pop popitem setdefault update values"]
  | object =>
    ["__class__ __delattr__ __dir__ __doc__ __eq__ __format__ __ge__ __getattribute__ __getstate__",
     "__gt__ __hash__ __init__ __init_subclass__ __le__ __lt__ __ne__ __new__ __reduce__",
     "__reduce_ex__ __repr__ __setattr__ __sizeof__ __str__ __subclasshook__"]
  | any => ["__dict__ __doc__ __module__ __new__ __weakref__"]
  | type =>
    ["__abstractmethods__ __annotations__ __base__ __bases__ __basicsize__ __call__ __delattr__",
     "__dict__ __dictoffset__ __dir__ __doc__ __flags__ __getattribute__ __init__",
     "__instancecheck__ __itemsize__ __module__ __mro__ __name__ __new__ __or__ __prepare__",
     "__qualname__ __repr__ __ror__ __setattr__ __sizeof__ __subclasscheck__ __subclasses__",
     "__text_signature__ __weakrefoffset__ mro"]
  | comparator =>
    ["EQUAL GREATER_THAN GREATER_THAN_OR_EQUAL LESS_THAN LESS_THAN_OR_EQUAL NOT_EQUAL __dict__",
     "__doc__ __format__ __module__ __new__ __repr__ __str__ __weakref__ _generate_next_value_",
     "_member_map_ _member_names_ _member_type_ _new_member_ _unhashable_values_ _use_args_",
     "_value2member_map_ _value_repr_"]
  | method =>
    ["__call__ __delattr__ __doc__ __eq__ __func__ __ge__ __getattribute__ __gt__ __hash__ __le__",
     "__lt__ __ne__ __new__ __reduce__ __repr__ __self__ __setattr__"]
  | enumBase =>
    ["__copy__ __deepcopy__ __dict__ __dir__ __doc__ __format__ __hash__ __init__ __module__",
     "__new__ __reduce_ex__ __repr__ __str__ __weakref__ _generate_next_value_ _member_map_",
     "_member_names_ _member_type_ _missing_ _new_member_ _unhashable_values_ _use_args_",
     "_value2member_map_ _value_repr_ name value"]
  | recordBase =>
    ["__abstractmethods__ __annotations__ __class_getitem__ __class_vars__ __copy__ __deepcopy__",
     "__delattr__ __dict__ __doc__ __eq__ __fields__ __fields_set__ __get_pydantic_core_schema__",
     "__get_pydantic_json_schema__ __getattr__ __getstate__ __hash__ __init__ __init_subclass__",
     "__iter__ __module__ __pretty__ __private_attributes__ __replace__ __repr__ __repr_args__",
     "__repr_name__ __repr_recursion__ __repr_str__ __rich_repr__ __setattr__ __setstate__",
     "__signature__ __slots__ __str__ _abc_impl _calculate_keys _copy_and_set_values _get_value",
     "_iter construct copy dict from_orm json model_computed_fields model_config model_construct",
     "model_copy model_dump model_dump_json model_extra model_fields model_fields_set",
     "model_json_schema model_parametrized_name model_post_init model_rebuild model_validate",
     "model_validate_json model_validate_strings parse_file parse_obj parse_raw schema schema_json",
     "update_forward_refs validate"]
  | validatableBase => ["__doc__ __module__ __slots__"]

/-- The names that a built-in type holds itself. -/
def ownNames (t : BuiltinType) : List String := t.nameLines.flatMap fun l => l.splitOn " "

/-- Whether a built-in type itself holds a name. -/
def holds (t : BuiltinType) (name : String) : Bool := t.ownNames.contains name

/-- A built-in type and those that it derives from, the nearest first, the one of all objects left
out. -/
def line : BuiltinType → List BuiltinType
  | object => []
  | bool => [bool, int]
  | dateTime => [dateTime, date]
  | comparator => [comparator, text, enumBase]
  | t => [t]

/-- How a member of a built-in type is read, as far as it is not read as a field. -/
inductive Shape
  | function | computed | plain
  deriving DecidableEq, Repr

/-- The functions of record types. -/
def recordFunctions : List String :=
  ["_calculate_keys", "_copy_and_set_values", "_get_value", "_iter", "construct", "copy", "dict",
    "from_orm", "json", "model_construct", "model_copy", "model_dump", "model_dump_json",
    "model_json_schema", "model_parametrized_name", "model_post_init", "model_rebuild",
    "model_validate", "model_validate_json", "model_validate_strings", "parse_file", "parse_obj",
    "parse_raw", "schema", "schema_json", "update_forward_refs", "validate"]

/-- How a name that a built-in type holds is read. -/
def shape (t : BuiltinType) (name : String) : Shape :=
  match t with
  | text | bytes => if name == "maketrans" then .function else .plain
  | comparator => if name == "_generate_next_value_" then .function else .plain
  | enumBase =>
    if ["_generate_next_value_", "_missing_", "_new_member_"].contains name then .function else .plain
  | recordBase =>
    if recordFunctions.contains name then .function
    else if name == "model_extra" || name == "model_fields_set" then .computed
    else .plain
  | _ => .plain

end BuiltinType

/-! ## 2. Data -/

namespace Value

/-- The type of a value; of an object it is known only that it is one. -/
def kind : Value → TypeId
  | none => .builtin .nothing
  | bool _ => .builtin .bool
  | int _ => .builtin .int
  | float _ => .builtin .float
  | decimal _ => .builtin .decimal
  | text _ => .builtin .text
  | bytes _ => .builtin .bytes
  | date _ => .builtin .date
  | dateTime _ => .builtin .dateTime
  | time _ => .builtin .time
  | list _ => .builtin .list
  | tuple _ => .builtin .tuple
  | set _ => .builtin .set
  | dict _ => .builtin .dict
  | enumMember t _ _ => .enumeration t
  | comparator _ => .builtin .comparator
  | type _ => .builtin .type
  | method _ _ => .builtin .method
  | object _ => .builtin .object
  | record t _ => .declared t

/-- A part of a whole number. -/
def intPart? (i : Int) : String → Option Value
  | "real" | "numerator" => some (int i)
  | "imag" => some (int 0)
  | "denominator" => some (int 1)
  | _ => Option.none

/-- A part of a day. -/
def datePart? (d : Date) : String → Option Value
  | "year" => some (int d.year)
  | "month" => some (int d.month)
  | "day" => some (int d.day)
  | _ => Option.none

/-- A part of a time of day. No time has a zone. -/
def timePart? (t : TimeOfDay) : String → Option Value
  | "hour" => some (int t.hour)
  | "minute" => some (int t.minute)
  | "second" => some (int t.second)
  | "microsecond" => some (int t.micro)
  | "fold" => some (int 0)
  | "tzinfo" => some none
  | _ => Option.none

/-- The name or the value of an enumeration member. -/
def enumPart? (name : String) (value : Value) : String → Option Value
  | "name" | "_name_" => some (text name)
  | "value" | "_value_" => some value
  | _ => Option.none

/-- The first and the last moment of a kind. -/
def bound? (t : BuiltinType) (name : String) : Option Value :=
  let first : Date := ⟨1, 1, 1⟩
  let last : Date := ⟨9999, 12, 31⟩
  let start : TimeOfDay := ⟨0, 0, 0, 0⟩
  let finish : TimeOfDay := ⟨23, 59, 59, 999999⟩
  match t, name with
  | .date, "min" => some (date first)
  | .date, "max" => some (date last)
  | .dateTime, "min" => some (dateTime ⟨first, start⟩)
  | .dateTime, "max" => some (dateTime ⟨last, finish⟩)
  | .time, "min" => some (time start)
  | .time, "max" => some (time finish)
  | _, _ => Option.none

/-- A name of a type. -/
def typePart? (t : TypeId) : String → Option Value
  | "__name__" | "__qualname__" => some (text t.name)
  | "__module__" => some (text t.module)
  | _ => Option.none

/-- The data that a value holds under a name. -/
def part? (v : Value) (name : String) : Option Value :=
  match v with
  | bool b => intPart? (if b then 1 else 0) name
  | int i => intPart? i name
  | float _ =>
    match name with
    | "real" => some v
    | "imag" => some (float (.ofInt 0))
    | _ => Option.none
  | decimal _ =>
    match name with
    | "real" => some v
    | "imag" => some (decimal (.ofInt 0))
    | "__module__" => some (text "decimal")
    | _ => Option.none
  | date d => (datePart? d name).or (bound? .date name)
  | dateTime t => (datePart? t.date name).or <| (timePart? t.time name).or (bound? .dateTime name)
  | time t => (timePart? t name).or (bound? .time name)
  | enumMember _ n value => enumPart? n value name
  | comparator c => enumPart? c.constant (text c.name) name
  | list _ | set _ | dict _ => if name == "__hash__" then some none else Option.none
  | none => if name == "__doc__" then some none else Option.none
  | type t => typePart? t name
  | method _ n => if name == "__name__" then some (text n) else Option.none
  | _ => Option.none

end Value
end MemberRules
