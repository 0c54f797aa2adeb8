/-!
Everything that can go wrong while a script runs, as causes, and the one place where they are put into words.
-/

namespace ScopeEngine

inductive Phase where
  | applicationStart
  | sessionStart
deriving DecidableEq, Repr

def Phase.hookName : Phase → String
  | .applicationStart => "onApplicationStart"
  | .sessionStart => "onSessionStart"

def Phase.abortText : Phase → String
  | .applicationStart => "application start aborted by listener"
  | .sessionStart => "session start aborted by listener"

inductive Error where
  | keyNotFound (path : String)
  | scopeNotFound (scope : String)
  | lockedKey (scope key : String)
  | unreadableConfig (path reason : String)
  | malformedConfig
  /-- A start hook failed or refused; the instance it was starting has been discarded. -/
  | startFailed (phase : Phase) (name : String) (cause : Error)
  | startAborted (phase : Phase)
  | missingArgument (function argument : String)
  | notAFunction (name : String)
  | invalidIdentifier (path : String)
  | notAStruct (path : String)
  | cannotSplice (contextType : String)
  | nothingToSpliceInto
  | noRequest
  | noServer
  | sessionsDisabled
  | thrown (message : String)
  | unknownHandle (handle : String)
  | unknownStep (name : String)
deriving DecidableEq, Repr

def Error.message : Error → String
  | .keyNotFound path => "the requested key [" ++ path ++ "] was not located in any scope or it's undefined"
  | .scopeNotFound scope => "the requested scope name [" ++ scope ++ "] was not located in any context"
  | .lockedKey scope key => "configuration error: cannot modify locked key [" ++ key ++ "] in scope [" ++ scope ++ "]"
  | .unreadableConfig path reason =>
    "invalid configuration: failed to read config file " ++ path ++ ": " ++ reason
  | .malformedConfig => "invalid configuration"
  | .startFailed phase name cause => phase.hookName ++ " failed for [" ++ name ++ "]: " ++ cause.message
  | .startAborted phase => phase.abortText
  | .missingArgument function argument =>
    "required argument [" ++ argument ++ "] is missing for function [" ++ function ++ "]"
  | .notAFunction name => "variable [" ++ name ++ "] is not a function"
  | .invalidIdentifier path => "invalid identifier [" ++ path ++ "]"
  | .notAStruct path => "cannot assign into [" ++ path ++ "]: it is not a struct"
  | .cannotSplice contextType => "cannot splice a " ++ contextType ++ " context into a request"
  | .nothingToSpliceInto => "no request context to splice into"
  | .noRequest => "no request context is active"
  | .noServer => "no server context is active"
  | .sessionsDisabled => "session management is not enabled for this request"
  | .thrown message => message
  | .unknownHandle handle => "driver: no handle " ++ handle
  | .unknownStep name => "driver: unknown statement " ++ name

end ScopeEngine
