import Mathlib.Data.List.Forall2
import RouteClient.Proofs.Outcome
import RouteClient.Run.Load

/-!
# What is loaded

Inputs are loaded one after the other, each with all of its files. What is loaded in the end are the
routes of all files, in the order in which the files are read (`Run.loadRoutes_eq_ok`).
-/

namespace RouteClient

namespace Run

open Outcome (bind_eq_ok)

/-- A file holds a text that is a document of routes. -/
def Holds (file : String × FileNode) (document : List Route) : Prop :=
  ∃ text, file.2.textOf = .ok text ∧ parseRoutes text = .ok document

/-- Inputs stand for files that hold documents, and these have the routes in their order. -/
def Loads (root : FileNode) (inputs : List String) (loaded : List Route) : Prop :=
  ∃ files documents, inputs.mapM (inputFiles root) = .ok files ∧
    List.Forall₂ Holds files.flatten documents ∧ loaded = documents.flatten

variable {root : FileNode} {input : String} {inputs : List String} {loaded : List Route}

/-- The routes of a file are those of the document that it holds. -/
theorem fileRoutes_eq_ok {file : String × FileNode} {document : List Route} :
    fileRoutes file.1 file.2 = .ok document ↔ Holds file document := by
  rw [fileRoutes, Holds]
  cases file.2.textOf with
  | error fault => simp
  | ok text => simp [Outcome.mapError_eq_ok]

private theorem mapM_fileRoutes {files : List (String × FileNode)} {documents : List (List Route)} :
    (files.mapM fun (path, node) => fileRoutes path node) = .ok documents ↔
      List.Forall₂ Holds files documents := by
  rw [Outcome.mapM_eq_ok, ← List.forall₂_eq_eq_eq, List.forall₂_map_left_iff,
    List.forall₂_map_right_iff]
  simp only [fileRoutes_eq_ok]

private theorem inputRoutes_eq_ok : inputRoutes root input = .ok loaded ↔
    ∃ files documents, inputFiles root input = .ok files ∧ List.Forall₂ Holds files documents ∧
      loaded = documents.flatten := by
  simp only [inputRoutes, bind_eq_ok, mapM_fileRoutes, pure, Except.pure, Except.ok.injEq]
  exact ⟨fun ⟨files, listed, documents, held, same⟩ => ⟨files, documents, listed, held, same.symm⟩,
    fun ⟨files, documents, listed, held, same⟩ => ⟨files, listed, documents, held, same.symm⟩⟩

private theorem loadRoutes_cons : loadRoutes root (input :: inputs) = .ok loaded ↔
    ∃ first rest, inputRoutes root input = .ok first ∧ loadRoutes root inputs = .ok rest ∧
      loaded = first ++ rest := by
  simp only [loadRoutes, List.mapM_cons, bind_eq_ok, pure, Except.pure, Except.ok.injEq]
  constructor
  · intro ⟨_, ⟨first, ofInput, others, ofOthers, split⟩, whole⟩
    exact ⟨first, others.flatten, ofInput, ⟨others, ofOthers, rfl⟩, by rw [← whole, ← split]; rfl⟩
  · intro ⟨first, _, ofInput, ⟨others, ofOthers, rest⟩, whole⟩
    exact ⟨first :: others, ⟨first, ofInput, others, ofOthers, rfl⟩, by rw [whole, ← rest]; rfl⟩

private theorem loads_cons : Loads root (input :: inputs) loaded ↔
    ∃ first rest, inputRoutes root input = .ok first ∧ Loads root inputs rest ∧
      loaded = first ++ rest := by
  simp only [Loads, List.mapM_cons, bind_eq_ok, inputRoutes_eq_ok, pure, Except.pure,
    Except.ok.injEq]
  constructor
  · intro ⟨_, documents, ⟨files, listed, others, listedOthers, split⟩, held, whole⟩
    subst split
    rw [List.flatten_cons] at held
    have heldFirst : List.Forall₂ Holds files (documents.take files.length) := by
      simpa using List.forall₂_take files.length held
    have heldRest : List.Forall₂ Holds others.flatten (documents.drop files.length) := by
      simpa using List.forall₂_drop files.length held
    refine ⟨_, _, ⟨files, _, listed, heldFirst, rfl⟩, ⟨others, _, listedOthers, heldRest, rfl⟩, ?_⟩
    rw [whole, ← List.flatten_append, List.take_append_drop]
  · intro ⟨_, _, ⟨files, early, listed, heldFirst, first⟩,
      ⟨others, late, listedOthers, heldRest, rest⟩, whole⟩
    exact ⟨files :: others, early ++ late, ⟨files, listed, others, listedOthers, rfl⟩,
      List.rel_append heldFirst heldRest, by rw [whole, first, rest, List.flatten_append]⟩

/-- Inputs are loaded in the way that `Loads` says. -/
theorem loadRoutes_eq_ok : loadRoutes root inputs = .ok loaded ↔ Loads root inputs loaded := by
  induction inputs generalizing loaded with
  | nil => simp [loadRoutes, Loads, pure, Except.pure, bind, Except.bind, eq_comm]
  | cons input inputs ih => simp only [loadRoutes_cons, loads_cons, ih]

end Run

end RouteClient
