import Wiring.Failure

/-!
# Dependencies and injection points

A component declares what it needs: the parameters of its constructor, fields that are set
after construction, and methods that are called after that, each with parameters of its own.

The places are labelled in messages by `Label`. `Points.demands` lists every place with its
dependency in the order in which validation visits them, `Points.resolutions` in the order in
which construction resolves them.
-/

namespace Wiring

/-- What a dependency asks for. -/
inductive Want
  /-- The only object of a type. -/
  | object (type : TypeKey)
  /-- The container. -/
  | container
  /-- A lazy handle on every object of a type. -/
  | selection (type : TypeKey)
deriving DecidableEq

namespace Want

/-- The requested type. -/
def type : Want → TypeKey
  | object type => type
  | container => .container
  | selection type => type

/-- The kind of want in full layouts. -/
def layout : Want → String
  | object _ => "Object"
  | container => "Container"
  | selection _ => "Selection"

end Want

/-- A want and the qualifiers that the provider must carry. -/
structure Dependency where
  want : Want
  qualifiers : Qualifiers := ∅
deriving DecidableEq

namespace Dependency

/-- A dependency on an object; an object that is the container is the container itself. -/
def object (type : TypeKey) : Dependency :=
  if type = .container then ⟨.container, ∅⟩ else ⟨.object type, ∅⟩

def container : Dependency := ⟨.container, ∅⟩

def selection (type : TypeKey) : Dependency := ⟨.selection type, ∅⟩

def qualified (d : Dependency) (q : Qualifier) : Dependency :=
  { d with qualifiers := d.qualifiers.put q }

/-- The full form. -/
def layout (d : Dependency) : String :=
  Text.record "Dependency"
    [("kind", d.want.layout), ("type", Text.quoted d.want.type.name),
     ("qualifiers", d.qualifiers.layout)]

end Dependency

/-! ## Labels of members in messages -/

namespace Label

/-- A parameter of a constructor or of an injection method. -/
def parameter (owner callable : String) (index : Nat) : String :=
  owner ++ "::" ++ callable ++ "(arg " ++ toString index ++ ")"

/-- A field, or another member that is named without brackets. -/
def member (owner name : String) : String := owner ++ "::" ++ name

def call (owner name : String) : String := owner ++ "::" ++ name ++ "()"

/-- Parameters with their labels, in order. -/
def parameters (owner callable : String) (wanted : List Dependency) : List (String × Dependency) :=
  wanted.mapIdx fun index d => (parameter owner callable index, d)

end Label

/-! ## Constructors and points -/

/-- How a component is constructed. -/
inductive Constructor
  /-- Without arguments. -/
  | noArgs
  /-- With these dependencies resolved as arguments. -/
  | inject (parameters : List Dependency)
deriving DecidableEq, Inhabited

namespace Constructor

/-- The dependencies that become arguments. -/
def parameters : Constructor → List Dependency
  | noArgs => []
  | inject parameters => parameters

/-- The full form. -/
def layout : Constructor → String
  | noArgs => "NoArgs"
  | inject parameters => Text.wrapped "Inject" (Text.listed (parameters.map Dependency.layout))

end Constructor

/-- A place where the container supplies values after construction. -/
inductive Point
  | field (name : String) (dependency : Dependency)
  | method (name : String) (parameters : List Dependency)
deriving DecidableEq

namespace Point

/-- The label of the place. -/
def label (owner : String) : Point → String
  | field name _ => Label.member owner name
  | method name _ => Label.call owner name

/-- Whether the place is a field. -/
def isField : Point → Bool
  | field _ _ => true
  | method _ _ => false

/-- The dependencies of the place with their labels. -/
def resolutions (owner : String) : Point → List (String × Dependency)
  | field name dependency => [(Label.member owner name, dependency)]
  | method name parameters => Label.parameters owner name parameters

/-- The full form. -/
def layout : Point → String
  | field name dependency =>
    Text.record "Field" [("name", Text.quoted name), ("dependency", dependency.layout)]
  | method name parameters =>
    Text.record "Method" [("name", Text.quoted name),
      ("parameters", Text.listed (parameters.map Dependency.layout))]

end Point

/-- The points of a component in order of declaration. -/
structure Points where
  toList : List Point := []
deriving DecidableEq, Inhabited

namespace Points

def field (p : Points) (name : String) (dependency : Dependency) : Points :=
  ⟨p.toList ++ [.field name dependency]⟩

def method (p : Points) (name : String) (parameters : List Dependency) : Points :=
  ⟨p.toList ++ [.method name parameters]⟩

def inherit (p base : Points) : Points := ⟨p.toList ++ base.toList⟩

def fields (p : Points) : List Point := p.toList.filter Point.isField

def methods (p : Points) : List Point := p.toList.filter (!·.isField)

/-- The points in the order in which they are injected: all fields, then all methods. -/
def injectionOrder (p : Points) : List Point := p.fields ++ p.methods

/-- What validation checks, in its order: constructor, methods, fields. -/
def demands (owner : String) (c : Constructor) (p : Points) : List (String × Dependency) :=
  Label.parameters owner "new" c.parameters ++
    (p.methods ++ p.fields).flatMap (Point.resolutions owner)

/-- What construction resolves, in its order: constructor, fields, methods. -/
def resolutions (owner : String) (c : Constructor) (p : Points) : List (String × Dependency) :=
  Label.parameters owner "new" c.parameters ++
    p.injectionOrder.flatMap (Point.resolutions owner)

def layout (p : Points) : String :=
  Text.record "InjectionPoints" [("points", Text.listed (p.toList.map Point.layout))]

end Points

end Wiring
