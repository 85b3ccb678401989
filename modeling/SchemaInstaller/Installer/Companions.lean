import SchemaInstaller.Installer.Plan
import SchemaInstaller.Php.Source
import SchemaInstaller.Php.Name

/-!
# The files beside the class

A script that runs an installer by hand, and the main file of the plugin, which runs it when the
plugin is activated and removed. All files take their names from the slug of the class.
-/

namespace SchemaInstaller

open Php

/-- The file of the class. -/
def classFileName (slug : String) : String := "class-" ++ slug ++ ".php"

/-- The script that runs the installer by hand. -/
def stubFileName (slug : String) : String := slug ++ "-installer.php"

/-- The main file of the plugin. -/
def mainFileName (slug : String) : String := slug ++ ".php"

/-- The start of the plugin's functions: the slug with underscores for hyphens. -/
def functionPrefix (slug : String) : String :=
  String.ofList (Text.replaceChar '-' ['_'] slug.toList)

namespace Companions

/-- An installer made from the class. -/
def makeInstaller (depth : Nat) (p : Plan) : Line :=
  ⟨depth, [.code "$installer = new ", .name p.className, .code "( $wpdb );"]⟩

/-- The lines of the script that runs the installer by hand. -/
def stubLines (p : Plan) : List Line :=
  let slug := Php.slug p.className
  [.code 0 "<?php", .code 0 "/**",
    ⟨0, [.code " * Runs ", .name p.className, .code " by hand, e.g. \x60wp eval-file ",
      .comment (stubFileName slug).toList, .code "\x60."]⟩,
    .code 0 " */", .blank,
    .code 0 "require_once dirname( __FILE__ ) . '/../../../wp-load.php';",
    ⟨0, [.code "require_once dirname( __FILE__ ) . ",
      .singleQuoted ('/' :: (classFileName slug).toList), .code ";"]⟩,
    .blank, .code 0 "global $wpdb;", .blank, makeInstaller 0 p,
    .code 0 "$installer->install();", .code 0 "$installer->populate();",
    .code 0 "// $installer->uninstall();"]

/-- The first line of one of the plugin's functions. -/
def functionLine (slug role : String) : Line :=
  ⟨0, [.code "function ", .name (functionPrefix slug ++ role), .code "() \x7b"]⟩

/-- The line that registers one of the plugin's functions. -/
def hookLine (hook slug role : String) : Line :=
  ⟨0, [.code (hook ++ "( __FILE__, "), .singleQuoted (functionPrefix slug ++ role).toList,
    .code " );"]⟩

/-- The name of the plugin: that of the class with spaces for underscores. -/
def pluginName (className : String) : Text := Text.replaceChar '_' [' '] className.toList

/-- The lines of the main file of the plugin. -/
def mainLines (p : Plan) : List Line :=
  let slug := Php.slug p.className
  [.code 0 "<?php", .code 0 "/**",
    ⟨0, [.code " * Plugin Name: ", .comment (pluginName p.className)]⟩,
    ⟨0, [.code " * Description: Installs the database objects of ", .name p.className, .code "."]⟩,
    .code 0 " * Version: 1.0.0", .code 0 " */", .blank,
    .code 0 "if ( ! defined( 'ABSPATH' ) ) \x7b", .code 1 "exit;", .code 0 "\x7d", .blank,
    ⟨0, [.code "require_once plugin_dir_path( __FILE__ ) . ",
      .singleQuoted (classFileName slug).toList, .code ";"]⟩,
    .blank,
    functionLine slug "_activate", .code 1 "global $wpdb;", makeInstaller 1 p,
    .code 1 "$installer->install();", .code 1 "$installer->populate();", .code 0 "\x7d", .blank,
    functionLine slug "_deactivate", .code 0 "\x7d", .blank,
    functionLine slug "_uninstall", .code 1 "global $wpdb;", makeInstaller 1 p,
    .code 1 "$installer->uninstall();", .code 0 "\x7d", .blank,
    hookLine "register_activation_hook" slug "_activate",
    hookLine "register_deactivation_hook" slug "_deactivate",
    hookLine "register_uninstall_hook" slug "_uninstall"]

end Companions

end SchemaInstaller
