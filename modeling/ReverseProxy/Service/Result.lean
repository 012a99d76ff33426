import ReverseProxy.Diagnostic
import ReverseProxy.Validation

/-!
# Results of operations

An operation answers with data or with an error. An error that comes from a diagnostic says where it
points. A result is also made of plain data, in which all but the outcome and the operation may be
missing.
-/

namespace ReverseProxy

structure ResultError where
  code : String
  message : String
  detail : List (String × Json)

structure Result where
  ok : Bool
  operation : String
  data : List (String × Json)
  warnings : List String
  error : Option ResultError

namespace Result

def success (operation : String) (data : List (String × Json)) : Result :=
  ⟨true, operation, data, [], none⟩

def failure (operation : String) (error : ResultError) : Result :=
  ⟨false, operation, [], [], some error⟩

end Result

def Diagnostic.detail (diagnostic : Diagnostic) : List (String × Json) :=
  [("source", .string diagnostic.source.name), ("line", .ofNat diagnostic.line),
    ("column", .ofNat diagnostic.column), ("offset", .ofNat diagnostic.span.offset),
    ("length", .ofNat diagnostic.span.length), ("help", .string diagnostic.help)]

def Diagnostic.error (diagnostic : Diagnostic) : ResultError :=
  ⟨diagnostic.kind.code, diagnostic.message, diagnostic.detail⟩

def ResultError.toJson (error : ResultError) : Json :=
  .object
    [("code", .string error.code), ("message", .string error.message),
      ("detail", .object error.detail)]

def Result.toJson (result : Result) : Json :=
  .object
    [("ok", .boolean result.ok), ("op", .string result.operation), ("data", .object result.data),
      ("warnings", .ofList .string result.warnings),
      ("error", .ofOption ResultError.toJson result.error)]

def ResultError.validate : Json → Validated ResultError :=
  .record "ServiceError" fun fields =>
    ResultError.mk <$> .required fields "code" .string <*> .required fields "message" .string <*>
      .optional fields "detail" [] .table

def Result.validate : Json → Validated Result :=
  .record "ServiceResult" fun fields =>
    Result.mk <$> .required fields "ok" .boolean <*> .required fields "op" .string <*>
      .optional fields "data" [] .table <*> .optional fields "warnings" [] (.list .string) <*>
      .optional fields "error" none (.nullable ResultError.validate)

end ReverseProxy
