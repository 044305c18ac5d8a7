import CommandSchema.Config
import CommandSchema.Generated.Frame
import CommandSchema.Generated.OptionsCode

/-!
# The bridge to scripts

The bridge defines one function for every command, which a script calls with an object of options,
and registers them all under their export names.

* `Generated.scriptFunction`: the function of a command.
* `Generated.bridge`: the whole file.
-/

namespace CommandSchema

/-- The name of the function of a command in the bridge. -/
def Command.bridgeName (c : Command) : String := "node" ++ c.recordName

namespace Generated

open Layout

/-- What the functions of the bridge rely on. -/
def bridgePrelude : List Step :=
  [.line "inline auto isNullish (Napi::Value value) -> bool \x7b",
    .line "  return value.IsNull() || value.IsUndefined();",
    .line "\x7d",
    .blank,
    .line "template <typename Cmd>",
    .line "inline auto handleCommand (Napi::Env env, const Cmd &cmd)",
    .line "  -> Napi::Value \x7b",
    .line "  try \x7b",
    .line "    auto resp = run(cmd);",
    .line "    if (auto err = resp.error()) \x7b",
    .line "      auto error = Napi::Error::New(env, err->what());",
    .line "      error.ThrowAsJavaScriptException();",
    .line "      return \x7b\x7d;",
    .line "    \x7d",
    .line "    Napi::Value res;",
    .line "    resp.result().visit([&env, &res] (const auto &resp) \x7b",
    .line "      res = response::toJsObject(env, resp);",
    .line "    \x7d);",
    .blank,
    .line "    return res;",
    .line "  \x7d catch (const Exception &e) \x7b",
    .line "    auto error = Napi::Error::New(env, e.what());",
    .line "    error.ThrowAsJavaScriptException();",
    .line "    return \x7b\x7d;",
    .line "  \x7d",
    .line "\x7d",
    .blank,
    .line "#define CPP_STR(x) ((x).As<Napi::String>().Utf8Value())",
    .line "#define CPP_INT(x) ((x).As<Napi::Number>().Int32Value())",
    .line "#define CPP_BOOL(x) ((x).As<Napi::Boolean>().Value())"]

/-- The headers that the bridge includes. -/
def bridgeInclusions (files : Config.Files) : List String :=
  ["exception.h", files.header, "response.h", "result.h", files.runHeader, "vector.h"]

/-- The function of a command. -/
def scriptFunction (c : Command) : List Step :=
  [.line ("auto " ++ c.bridgeName ++ " (const Napi::CallbackInfo &info)"),
    .opening "  -> Napi::Value \x7b"] ++
    (OptionsCode.ofCommand c).steps OptionsCode.writing ++ [.closing "\x7d"]

/-- The registration of a command. -/
def registration (c : Command) : Step :=
  .line ("exports[" ++ Text.quote c.exportName ++ "] = Napi::Function::New(env, " ++
    c.bridgeName ++ ");")

/-- The function that registers all commands. -/
def registrations (s : Schema) : List Step :=
  [.line "auto init (Napi::Env env, Napi::Object exports)", .opening " -> Napi::Object \x7b"] ++
    s.commands.map registration ++ [.line "return exports;", .closing "\x7d"]

/-- The bridge to scripts. -/
def bridge (s : Schema) (config : Config) : List Step :=
  [disclaimer, .blank,
    .line "#ifndef BUILD_NODEJS",
    .line "#error \"This file only works in Node builds\"",
    .line "#endif // BUILD_NODEJS", .blank,
    .line "#include <napi.h>", .blank] ++
    (bridgeInclusions config.files).map inclusion ++
    [.blank, namespaceStart config.nameSpace, .blank] ++
    bridgePrelude ++ [.blank] ++
    s.commands.flatMap (fun c => scriptFunction c ++ [.blank]) ++
    [.line "#undef CPP_STR", .line "#undef CPP_INT", .line "#undef CPP_BOOL", .blank] ++
    registrations s ++
    [.blank, .line "NODE_API_MODULE(NODE_GYP_MODULE_NAME, init)", .blank,
      namespaceEnd config.nameSpace]

end Generated

end CommandSchema
