import SmithyKotlin.Json.Decode
import SmithyKotlin.Symbol.Basic

/-!
# Symbols as JSON

The JSON form of symbols and dependencies, written with all fields (`Symbol.encode`) and read back
(`Symbol.decode`).  It is how symbols are given to a provider from outside.
-/

namespace SmithyKotlin

namespace Dependency

def encode (dependency : Dependency) : Json :=
  .object [("artifact", .string dependency.artifact), ("version", .string dependency.version)]

structure Parts where
  artifact : Option String := none
  version : Option String := none

def recordType : RecordType := ⟨"struct SymbolDependency", ["artifact", "version"]⟩

def Parts.step (parts : Parts) (name : String) (source : Source) : Except Fault Parts := do
  match name with
  | "artifact" =>
    return { parts with artifact := ← fillSlot parts.artifact name Source.asString source }
  | _ => return { parts with version := ← fillSlot parts.version name Source.asString source }

def decode (source : Source) : Except Fault Dependency := do
  let (parts, form) ← recordType.read .value Parts.step {} source
  let artifact ← recordType.require form "artifact" parts.artifact
  return ⟨artifact, ← recordType.require form "version" parts.version⟩

end Dependency

namespace Symbol

def encode (symbol : Symbol) : Json :=
  .object [("name", .string symbol.name), ("namespace", .string symbol.package),
    ("nullable", .bool symbol.nullable), ("boxed", .bool symbol.boxed),
    ("dependencies", .array (symbol.dependencies.map Dependency.encode))]

structure Parts where
  name : Option String := none
  package : Option String := none
  nullable : Option Bool := none
  boxed : Option Bool := none
  dependencies : Option (List Dependency) := none

def recordType : RecordType :=
  ⟨"struct Symbol", ["name", "namespace", "nullable", "boxed", "dependencies"]⟩

def Parts.step (parts : Parts) (name : String) (source : Source) : Except Fault Parts := do
  match name with
  | "name" => return { parts with name := ← fillSlot parts.name name Source.asString source }
  | "namespace" =>
    return { parts with package := ← fillSlot parts.package name Source.asString source }
  | "nullable" =>
    return { parts with nullable := ← fillSlot parts.nullable name Source.asBool source }
  | "boxed" => return { parts with boxed := ← fillSlot parts.boxed name Source.asBool source }
  | _ =>
    let decode := Source.asList Dependency.decode
    return { parts with dependencies := ← fillSlot parts.dependencies name decode source }

def decode (source : Source) : Except Fault Symbol := do
  let (parts, form) ← recordType.read .value Parts.step {} source
  let name ← recordType.require form "name" parts.name
  let package ← recordType.require form "namespace" parts.package
  let nullable ← recordType.require form "nullable" parts.nullable
  let boxed ← recordType.require form "boxed" parts.boxed
  return ⟨name, package, nullable, boxed, parts.dependencies.getD []⟩

end Symbol

end SmithyKotlin
