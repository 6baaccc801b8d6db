import Mathlib
import Masqr.Lib.Select
import Masqr.Net
import Masqr.Text

/-!
Which upstream answers a name, and whether its answer becomes a route. First match wins.
-/

namespace Masqr.Dns

open Masqr.Lib

/-- Why a policy was refused when it was installed. -/
inductive PolicyError
  | unknownResolver (rule : ℕ) (resolver : String)
  | duplicateResolver (id : String)
  | emptyMatch (rule : ℕ)
  | missingUrl (id : String)
  deriving DecidableEq

def PolicyError.text : PolicyError → String
  | .unknownResolver rule resolver =>
    s!"rule {rule} names the resolver `{resolver}`, which is not declared"
  | .duplicateResolver id => s!"the resolver `{id}` is declared more than once"
  | .emptyMatch rule => s!"rule {rule} matches an empty name; use `any` to match everything"
  | .missingUrl id => s!"a doh resolver needs a url, and `{id}` has none"

/-- How an upstream is spoken to. -/
inductive Kind | doh | plain
  deriving DecidableEq

/-- Which side of the tunnel an upstream is reached from. -/
inductive Via | tunnel | direct
  deriving DecidableEq

/-- One upstream, as the application declares it. -/
structure Resolver where
  id : String
  kind : Kind
  address : IpAddr
  url : Option String
  via : Via
  deriving DecidableEq

inductive Match
  | exact (name : String)
  | suffix (name : String)
  | any
  deriving DecidableEq

/-- Who asked, when that is known: the full path of the program, and its file name. -/
structure Asker where
  path : String
  name : String

structure Rule where
  matcher : Match
  resolver : String
  programs : List String
  route : Bool
  deriving DecidableEq

/-- The policy as it arrives over the control interface. -/
structure PolicyInput where
  resolvers : List Resolver
  rules : List Rule

structure Decision where
  resolver : Resolver
  route : Bool
  rule : ℕ
  deriving DecidableEq

abbrev Indexed := Std.ExtTreeMap String (List ℕ)

/-- A checked policy: for each name the rules about it, the lowest-numbered first. -/
structure Policy where
  resolvers : Std.ExtTreeMap String Resolver
  rules : List Rule
  exact : Indexed
  suffix : Indexed
  any : List ℕ

/-- A name as it is compared: lowercase, no trailing dot. -/
def normalise (name : String) : String :=
  toAsciiLowercase (String.ofList (name.toList.rdropWhile (· = '.')))

/-- A program as it is compared: lowercase, with the separator of this platform. -/
def normaliseProgram (program : String) : String :=
  String.ofList ((toAsciiLowercase program).toList.map fun c => if c = '/' then '\\' else c)

def Match.normalised : Match → Match
  | .exact name => .exact (normalise name)
  | .suffix name => .suffix (normalise name)
  | .any => .any

def Rule.normalised (rule : Rule) : Rule :=
  { rule with
    matcher := rule.matcher.normalised
    programs := rule.programs.map normaliseProgram }

namespace Policy

def addResolver (resolvers : Std.ExtTreeMap String Resolver) (resolver : Resolver) :
    Except PolicyError (Std.ExtTreeMap String Resolver) :=
  if resolver.kind = .doh ∧ resolver.url = none then .error (.missingUrl resolver.id)
  else if resolver.id ∈ resolvers then .error (.duplicateResolver resolver.id)
  else .ok (resolvers.insert resolver.id resolver)

/-- One more rule about a name. -/
def append (rules : Indexed) (name : String) (index : ℕ) : Indexed :=
  rules.insert name ((rules[name]?).getD [] ++ [index])

/-- The next rule, its index the number of rules before it. -/
def addRule (p : Policy) (rule : Rule) : Except PolicyError Policy :=
  let index := p.rules.length
  if rule.resolver ∉ p.resolvers then .error (.unknownResolver index rule.resolver)
  else
    let rule := rule.normalised
    let rules := p.rules ++ [rule]
    match rule.matcher with
    | .exact name =>
      if name = "" then .error (.emptyMatch index)
      else .ok { p with rules := rules, exact := append p.exact name index }
    | .suffix name =>
      if name = "" then .error (.emptyMatch index)
      else .ok { p with rules := rules, suffix := append p.suffix name index }
    | .any => .ok { p with rules := rules, any := p.any ++ [index] }

/-- Check a policy and arrange it for lookup. -/
def build (input : PolicyInput) : Except PolicyError Policy :=
  match input.resolvers.foldlM addResolver ∅ with
  | .error problem => .error problem
  | .ok resolvers => input.rules.foldlM addRule ⟨resolvers, [], ∅, ∅, []⟩

/-- Whether a list of programs admits whoever is asking: an empty one admits everybody, and
another nobody who is not known. -/
def appliesTo (programs : List String) (asker : Option Asker) : Bool :=
  if programs.isEmpty then true
  else
    match asker with
    | none => false
    | some asker => programs.any fun program => program == asker.path || program == asker.name

/-- What is left of a name after each of its dots, while anything is left. -/
def tails : List Char → List (List Char)
  | [] => []
  | c :: rest => if c = '.' ∧ rest ≠ [] then rest :: tails rest else tails rest

/-- Every rule that could match a name, in the order the rules were written. -/
def candidates (p : Policy) (name : String) : List ℕ :=
  let exact := (p.exact[name]?).getD []
  let suffix := (name.toList :: tails name.toList).flatMap fun rest =>
    (p.suffix[String.ofList rest]?).getD []
  (exact ++ suffix ++ p.any).insertionSort (· ≤ ·)

/-- The rule that decides a name, or nothing when no rule matches. It is an error for the rule
to name a resolver that is not declared. -/
def decide (p : Policy) (name : String) (asker : Option Asker) : Except String (Option Decision) :=
  let admits (index : ℕ) : Bool :=
    (p.rules[index]?).any fun rule => appliesTo rule.programs asker
  match (p.candidates name).find? admits with
  | none => .ok none
  | some index =>
    match (p.rules[index]?).bind fun rule =>
      (p.resolvers[rule.resolver]?).map fun resolver => (⟨resolver, rule.route, index⟩ : Decision) with
    | some decision => .ok (some decision)
    | none => .error "build refused a rule naming an undeclared resolver"

/-- Every declared resolver that has to be reachable through the tunnel. -/
def tunnelledResolvers (p : Policy) : List IpAddr :=
  (p.resolvers.values.filter fun r => r.via = .tunnel).map Resolver.address

/-- Whether every name has an answer here: only a catch-all for every program promises that. -/
def decidesEverything (p : Policy) : Bool :=
  p.any.any fun index => (p.rules[index]?).any fun rule => rule.programs.isEmpty

def ruleCount (p : Policy) : ℕ := p.rules.length

def resolverCount (p : Policy) : ℕ := p.resolvers.size

end Policy

end Masqr.Dns
