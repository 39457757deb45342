import PromptDoc.Engine
import PromptDoc.Template.Eval
import PromptDoc.Template.Parser
import PromptDoc.Template.Reference

/-!
# The template engine

The engine of templates in tags. Partials are templates that others embed by name, the body of a
prompt is a template under a name of its own, and the context is seen under one variable.
-/

namespace PromptDoc.Template

/-- The name of the variable that holds the context. -/
def contextName : String := "context"

/-- The name that the body of a prompt is registered under. -/
def bodyName : String := "__dotprompt__"

/-- What is registered on an engine. -/
structure Environment where
  functions : OrderedMap Function := ∅
  templates : OrderedMap (List Node) := ∅

namespace Environment

/-- Register a template. -/
def addTemplate (e : Environment) (name source : String) : Except TemplateError Environment :=
  match parse? source with
  | some nodes => .ok { e with templates := e.templates.insert name nodes }
  | none => .error (.compile name)

/-- Render the body. -/
def render (e : Environment) (input context : Json.Fields) : Except TemplateError String :=
  let root := Value.ofJson (.ofFields (input.insert contextName (.ofFields context)))
  match e.templates.get? bodyName with
  | none => .error .render
  | some nodes =>
    match Run.render ⟨e.functions, e.templates, root⟩ nodes with
    | some text => .ok text
    | none => .error .render

end Environment

/-- The engine. -/
def engine : Engine Environment where
  fresh := {}
  addHelper e name helper := { e with functions := e.functions.insert name (.helper helper) }
  addBuiltin e b := { e with functions := e.functions.insert b.name (.builtin b) }
  addPartial := Environment.addTemplate
  references := references
  setBody e source := e.addTemplate bodyName source
  render := Environment.render

end PromptDoc.Template
