import SystemsLang.Proofs.Typing.Passes

/-!
# Scopes and environments

The scopes that the checker changes in place stand for an environment of the rules. What is entered
into the innermost scope is a new binding there, and an opened scope is one without bindings.
Between two statements of a function body some scope of the body is open, what the open scopes hold
is declared, and the environment is sound.
-/

namespace SystemsLang.Typing

open Syntax Checker

variable {surroundings : Surroundings} {scopes : Scopes} {name : String} {symbol : Symbol}

/-- One more entry of a scope is one more binding. -/
theorem frameOf_cons (name : String) (symbol : Symbol) (scope : Scope) :
    frameOf ((name, symbol) :: scope) = (frameOf scope).bind name symbol.binding := by
  funext other
  by_cases same : other = name
  · simp [frameOf, Frame.bind, same]
  · have differs : (other == name) = false := beq_false_of_ne same
    simp [frameOf, Frame.bind, List.lookup_cons, same, differs]

/-- What is entered into the innermost scope is bound there. -/
theorem env_insert (registry : Registry) (scopes : Scopes) (enclosing : Option Enclosing)
    (name : String) (symbol : Symbol) :
    (Context.mk registry (scopes.insert name symbol) enclosing).env =
      (Context.mk registry scopes enclosing).env.bind name symbol.binding := by
  obtain ⟨opened, global⟩ := scopes
  cases opened with
  | nil => simp [Context.env, Scopes.insert, Env.bind, frameOf_cons]
  | cons innermost outer => simp [Context.env, Scopes.insert, Env.bind, frameOf_cons]

/-- A new scope binds nothing. -/
theorem Env.Binds.inner {env : Env} {holds : Ty → Prop} (binds : env.Binds holds) :
    env.inner.Binds holds := by
  intro frame member name binding found
  rcases List.mem_cons.mp member with rfl | member
  · exact binds _ List.mem_cons_self name binding found
  · rcases List.mem_cons.mp member with rfl | member
    · cases found
    · exact binds frame (List.mem_cons_of_mem _ member) name binding found

/-- A new scope leaves an environment sound. -/
theorem Env.Sound.inner {env : Env} (sound : env.Sound) : env.inner.Sound :=
  ⟨sound.fields, sound.bindings.inner⟩

/-- A binding changes no structs. -/
@[simp] theorem Env.structs_bind (env : Env) (name : String) (binding : Binding) :
    (env.bind name binding).structs = env.structs := by
  unfold Env.bind
  split <;> rfl

/-- A binding does not change what the function gives back. -/
theorem Env.result_bind (env : Env) (name : String) (binding : Binding) :
    (env.bind name binding).result = env.result := by
  unfold Env.bind
  split <;> rfl

/-- What a frame with one more binding binds is bound by the frame or is that binding. -/
theorem Frame.bind_eq_some {frame : Frame} {name other : String} {binding found : Binding}
    (bound : frame.bind name binding other = some found) :
    frame other = some found ∨ binding = found := by
  unfold Frame.bind at bound
  split at bound
  · exact .inr (Option.some.inj bound)
  · exact .inl bound

/-- A binding to a type with the property leaves it to all. -/
theorem Env.Binds.bind {env : Env} {holds : Ty → Prop} (binds : env.Binds holds)
    {binding : Binding} (here : holds binding.type) : (env.bind name binding).Binds holds := by
  obtain ⟨structs, globals, frames, result⟩ := env
  intro frame member other found bound
  cases frames with
  | nil =>
    rcases List.mem_cons.mp member with rfl | impossible
    · rcases Frame.bind_eq_some bound with earlier | rfl
      · exact binds globals List.mem_cons_self other found earlier
      · exact here
    · cases impossible
  | cons innermost outer =>
    rcases List.mem_cons.mp member with rfl | member
    · exact binds _ List.mem_cons_self other found bound
    · rcases List.mem_cons.mp member with rfl | member
      · rcases Frame.bind_eq_some bound with earlier | rfl
        · exact binds innermost (by simp) other found earlier
        · exact here
      · exact binds frame (by simp [member]) other found bound

/-- A binding to a type whose structs are there leaves an environment sound. -/
theorem Env.Sound.bind {env : Env} (sound : env.Sound) {binding : Binding}
    (closed : Closed env.structs binding.type) : (env.bind name binding).Sound := by
  constructor
  · rw [Env.structs_bind]
    exact sound.fields
  · rw [Env.structs_bind]
    exact sound.bindings.bind closed

/-- Between the statements of a function body some scope of the body is open, what the open scopes
hold is declared, and the environment is sound. -/
structure Ready (surroundings : Surroundings) (scopes : Scopes) : Prop where
  inside : scopes.opened ≠ []
  declared : ∀ scope ∈ scopes.opened, ∀ entry ∈ scope, entry.2.declared = true
  sound : (surroundings.context scopes).Sound

/-- A new scope holds nothing that is not declared. -/
theorem Ready.push (ready : Ready surroundings scopes) : Ready surroundings scopes.push where
  inside := List.cons_ne_nil _ _
  declared := by
    intro scope member entry inScope
    rcases List.mem_cons.mp member with rfl | member
    · cases inScope
    · exact ready.declared scope member entry inScope
  sound := ⟨ready.sound.env.inner, ready.sound.known⟩

/-- A declared symbol whose type has its structs there may be entered. -/
theorem Ready.insert (ready : Ready surroundings scopes) (declared : symbol.declared = true)
    (closed : Closed surroundings.registry.get? symbol.type) :
    Ready surroundings (scopes.insert name symbol) := by
  obtain ⟨opened, global⟩ := scopes
  cases opened with
  | nil => exact absurd rfl ready.inside
  | cons innermost outer =>
    have sound : (surroundings.context (Scopes.mk (innermost :: outer) global)).env.Sound :=
      ready.sound.env
    refine ⟨List.cons_ne_nil _ _, ?_, ⟨?_, ready.sound.known⟩⟩
    · intro scope member entry inScope
      rcases List.mem_cons.mp member with rfl | member
      · rcases List.mem_cons.mp inScope with rfl | inScope
        · exact declared
        · exact ready.declared innermost List.mem_cons_self entry inScope
      · exact ready.declared scope (List.mem_cons_of_mem _ member) entry inScope
    · rw [Surroundings.context, env_insert]
      exact sound.bind closed

/-- Between statements a name can be declared exactly if it is not bound in the innermost scope. -/
theorem Ready.undeclared_iff (ready : Ready surroundings scopes) :
    (scopes.local? name).any Symbol.declared = false ↔
      (surroundings.context scopes).env.Fresh name := by
  obtain ⟨opened, global⟩ := scopes
  cases opened with
  | nil => exact absurd rfl ready.inside
  | cons innermost outer =>
    have fresh : (surroundings.context ⟨innermost :: outer, global⟩).env.Fresh name ↔
        innermost.lookup name = none := by
      simp [Surroundings.context, Context.env, Env.Fresh, frameOf]
    have here : Scopes.local? ⟨innermost :: outer, global⟩ name = innermost.lookup name := rfl
    rw [fresh, here]
    cases found : innermost.lookup name with
    | none => simp
    | some symbol =>
      have declared : symbol.declared = true :=
        ready.declared innermost List.mem_cons_self _ (mem_of_lookup found)
      simp [declared]

end SystemsLang.Typing
