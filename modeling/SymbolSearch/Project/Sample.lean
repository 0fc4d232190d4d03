import SymbolSearch.Project.Solution

/-!
# Sample solutions

Small solutions for trying out searches, and one of any size.
-/

namespace SymbolSearch.Sample

inductive Kind where
  | singleClass
  | singleClassWithSingleMethod
  | singleClassWithSingleProperty
  | singleClassWithSingleField
  | twoProjectsEachWithASingleClassWithSingleMethod
  | twoProjectsEachWithASingleClassWithSingleProperty
  | twoProjectsEachWithASingleClassWithSingleField
  | nestedClass
  | twoNamespacesWithIdenticalClasses
  | singleClassWithAll
  | largeSolution
  deriving DecidableEq, Repr

def Kind.name : Kind → String
  | singleClass => "SingleClass"
  | singleClassWithSingleMethod => "SingleClassWithSingleMethod"
  | singleClassWithSingleProperty => "SingleClassWithSingleProperty"
  | singleClassWithSingleField => "SingleClassWithSingleField"
  | twoProjectsEachWithASingleClassWithSingleMethod =>
    "TwoProjectsEachWithASingleClassWithSingleMethod"
  | twoProjectsEachWithASingleClassWithSingleProperty =>
    "TwoProjectsEachWithASingleClassWithSingleProperty"
  | twoProjectsEachWithASingleClassWithSingleField =>
    "TwoProjectsEachWithASingleClassWithSingleField"
  | nestedClass => "NestedClass"
  | twoNamespacesWithIdenticalClasses => "TwoNamespacesWithIdenticalClasses"
  | singleClassWithAll => "SingleClassWithAll"
  | largeSolution => "LargeSolution"

def Kind.all : List Kind :=
  [singleClass, singleClassWithSingleMethod, singleClassWithSingleProperty,
    singleClassWithSingleField, twoProjectsEachWithASingleClassWithSingleMethod,
    twoProjectsEachWithASingleClassWithSingleProperty,
    twoProjectsEachWithASingleClassWithSingleField, nestedClass,
    twoNamespacesWithIdenticalClasses, singleClassWithAll, largeSolution]

def Kind.ofName? (name : String) : Option Kind := Kind.all.find? (·.name == name)

open Declaration (ofName)

/-- A small part of a standard library, some of it invisible from outside. -/
def standardLibrary : MetadataReference :=
  ⟨"mscorlib", [(ofName .namespaceDecl "System").withChildren
    [ofName .classDecl "Object",
      (ofName .classDecl "String").withChildren
        [ofName .propertyDecl "Length",
          { ofName .fieldDecl "m_firstChar" with accessibility := .privateAccess }],
      { ofName .interfaceDecl "IComparable" with arity := 1 },
      { ofName .classDecl "TestCaseHelpers" with accessibility := .internalAccess }]]⟩

/-- A project with one document, which references the standard library. -/
def project (n : Nat) (declarations : List Declaration) : ProjectInfo :=
  let name := s!"TestProject{n}"
  ⟨⟨UInt32.ofNat n⟩, name, name, "C#", [⟨⟨1⟩, "TestDocument.cs", declarations⟩], [],
    [standardLibrary]⟩

def testCase (members : List Declaration) : Declaration :=
  ((ofName .namespaceDecl "TestCases").withRange 0 200).withChildren
    [((ofName .classDecl "TestCase").withRange 24 190).withChildren members]

def method : Declaration :=
  { (ofName .methodDecl "Test").withRange 60 100 with parameters := ["string[]"] }

def property : Declaration := (ofName .propertyDecl "TestProperty").withRange 104 140

def field : Declaration := (ofName .fieldDecl "TestField").withRange 144 170

def innerClass (start stop : UInt32) : Declaration :=
  (ofName .classDecl "InnerTestCase").withRange start stop

/-- Every project has a namespace with this many modules. -/
def largeInfos (projects classes : Nat) : List ProjectInfo :=
  (List.range projects).map fun i =>
    let modules := (List.range classes).map fun m =>
      (ofName .namespaceDecl s!"Module{m}").withChildren
        [(ofName .classDecl s!"TestCase{m}").withChildren
          [ofName .methodDecl "Run", ofName .propertyDecl s!"Value{m}"]]
    project (i + 1)
      [(ofName .namespaceDecl s!"Generated{i + 1}").withChildren modules, testCase []]

def Kind.infos : Kind → List ProjectInfo
  | singleClass => [project 1 [testCase []]]
  | singleClassWithSingleMethod => [project 1 [testCase [method]]]
  | singleClassWithSingleProperty => [project 1 [testCase [property]]]
  | singleClassWithSingleField => [project 1 [testCase [field]]]
  | twoProjectsEachWithASingleClassWithSingleMethod =>
    [1, 2].map (project · [testCase [method]])
  | twoProjectsEachWithASingleClassWithSingleProperty =>
    [1, 2].map (project · [testCase [property]])
  | twoProjectsEachWithASingleClassWithSingleField => [1, 2].map (project · [testCase [field]])
  | nestedClass => [project 1 [testCase [innerClass 60 100]]]
  | twoNamespacesWithIdenticalClasses =>
    [project 1
      [((ofName .namespaceDecl "TestCase1").withRange 0 60).withChildren
          [(ofName .classDecl "TestCase").withRange 24 50],
        ((ofName .namespaceDecl "TestCase2").withRange 62 122).withChildren
          [(ofName .classDecl "TestCase").withRange 86 112]]]
  | singleClassWithAll => [project 1 [testCase [method, property, field, innerClass 172 186]]]
  | largeSolution => largeInfos 8 16

/-- Namespaces nested in each other, the outermost named `N0`. -/
def nested (depth : Nat) : List Declaration :=
  (List.range depth).foldr (fun i inner => [(ofName .namespaceDecl s!"N{i}").withChildren inner]) []

end SymbolSearch.Sample
